import QueryCriteria.Criterion
import QueryCriteria.Proofs.Outline
/-!
# Readings of criteria

Criteria spell an expression token by token, where a comparison that brings a bracket is two
tokens. They read as one expression at most (`Reads.unique`). Where groups stay open, the criteria
before the group that has been open longest read as what there is of the top level
(`exists_reads_append`).
-/

namespace QueryCriteria

/-! ## Roles -/

/-- Of comparison, join and order, a criterion has the operator of its role and no other. A bare
bracket opens or closes. -/
theorem Criterion.operators_of_role {c : Criterion} {role : Role} (h : c.role = .ok role) :
    Operator.isDefined c.comparison = decide (role = .restriction) ∧
      Operator.isDefined c.join = decide (role = .join) ∧
      Operator.isDefined c.order = decide (role = .order) ∧
      (role = .enclosure → Operator.isDefined c.enclosure = true) := by
  unfold Criterion.role at h
  split at h
  case h_1 hc hj ho => cases h; exact ⟨hc, hj, ho, nofun⟩
  case h_2 hc hj ho => cases h; exact ⟨hc, hj, ho, nofun⟩
  case h_3 hc hj ho => cases h; exact ⟨hc, hj, ho, nofun⟩
  case h_4 hc hj ho =>
    split at h
    · next he => cases h; exact ⟨hc, hj, ho, fun _ => he⟩
    · cases h
  case h_5 => cases h

/-- A restriction has a comparison. -/
theorem Criterion.isDefined_of_restriction {c : Criterion} (h : c.role = .ok .restriction) :
    Operator.isDefined c.comparison = true := (operators_of_role h).1

/-- A bare bracket has no comparison, and opens or closes. -/
theorem Criterion.isDefined_of_enclosure {c : Criterion} (h : c.role = .ok .enclosure) :
    Operator.isDefined c.comparison = false ∧ Operator.isDefined c.enclosure = true := by
  obtain ⟨hc, -, -, he⟩ := operators_of_role h
  exact ⟨hc, he rfl⟩

/-- A restriction neither joins nor orders. -/
theorem Criterion.join_order_of_restriction {c : Criterion} (h : c.role = .ok .restriction) :
    c.join = .undefined ∧ c.order = .undefined := by
  obtain ⟨-, hj, ho, -⟩ := operators_of_role h
  exact ⟨Operator.isDefined_eq_false.1 hj, Operator.isDefined_eq_false.1 ho⟩

/-- A bare bracket has no operator besides. -/
theorem Criterion.join_order_of_enclosure {c : Criterion} (h : c.role = .ok .enclosure) :
    c.comparison = .undefined ∧ c.join = .undefined ∧ c.order = .undefined := by
  obtain ⟨hc, hj, ho, -⟩ := operators_of_role h
  exact ⟨Operator.isDefined_eq_false.1 hc, Operator.isDefined_eq_false.1 hj,
    Operator.isDefined_eq_false.1 ho⟩

/-! ## Tokens -/

variable {α : Type}

namespace Criterion

/-- The tokens of a criterion, with what stands for its comparison if it has one. The logical
operator belongs to the group when the criterion opens one. -/
def tokens (c : Criterion) (leaf : Option α) : List (Token α) :=
  match c.enclosure, leaf with
  | .undefined, none => []
  | .undefined, some a => [.comparison c.logical a]
  | .opening, none => [.opening c.logical]
  | .opening, some a => [.opening c.logical, .comparison .undefined a]
  | .closing, none => [.closing]
  | .closing, some a => [.comparison c.logical a, .closing]

/-- What stands for the comparison of a criterion read by itself: the criterion, unless it is a bare
bracket. -/
def compared? (c : Criterion) : Option Criterion :=
  if Operator.isDefined c.comparison then some c else none

/-- The brackets that criteria bring. -/
def brackets : Brackets Criterion where
  opens c := decide (c.enclosure = .opening)
  closes c := decide (c.enclosure = .closing)
  closes_of_opens c h := by simp_all

/-- A bracket or a comparison is told by some token. -/
theorem tokens_ne_nil {c : Criterion} {leaf : Option α}
    (h : Operator.isDefined c.enclosure = true ∨ leaf.isSome = true) : c.tokens leaf ≠ [] := by
  unfold tokens
  cases he : c.enclosure <;> cases leaf <;> simp [he] at h ⊢
  cases h

/-- Only the first token of a criterion opens a bracket. -/
theorem opening_not_mem_tail (c : Criterion) (leaf : Option α) (l : Logical) :
    .opening l ∉ (c.tokens leaf).tail := by
  unfold tokens
  cases c.enclosure <;> cases leaf <;> simp

theorem leaves_tokens (c : Criterion) (leaf : Option α) :
    (c.tokens leaf).filterMap Token.leaf? = leaf.toList := by
  unfold tokens
  cases c.enclosure <;> cases leaf <;> simp [List.filterMap_cons, Token.leaf?]

theorem map_tokens {β : Type} (f : α → β) (c : Criterion) (a? : Option α) :
    (c.tokens a?).map (Token.map f) = c.tokens (a?.map f) := by
  unfold tokens
  cases c.enclosure <;> cases a? <;> rfl

/-- The tokens of a criterion open the bracket that it opens. -/
theorem countP_opens_tokens (c : Criterion) (leaf : Option α) :
    (c.tokens leaf).countP Token.brackets.opens = [c].countP brackets.opens := by
  unfold tokens
  cases he : c.enclosure <;> cases leaf <;> simp [Token.brackets, brackets, he]

theorem countP_closes_tokens (c : Criterion) (leaf : Option α) :
    (c.tokens leaf).countP Token.brackets.closes = [c].countP brackets.closes := by
  unfold tokens
  cases he : c.enclosure <;> cases leaf <;> simp [Token.brackets, brackets, he]

end Criterion

/-! ## Sequences -/

/-- The tokens of a sequence of criteria. -/
def readingOf (cs : List Criterion) : List (Token Criterion) :=
  cs.flatMap fun c => c.tokens c.compared?

@[simp] theorem readingOf_nil : readingOf [] = [] := rfl

@[simp] theorem readingOf_cons (c : Criterion) (cs : List Criterion) :
    readingOf (c :: cs) = c.tokens c.compared? ++ readingOf cs := rfl

@[simp] theorem readingOf_append (cs cs' : List Criterion) :
    readingOf (cs ++ cs') = readingOf cs ++ readingOf cs' := List.flatMap_append

/-- The tokens of criteria bring the comparisons of the criteria. -/
theorem leaves_readingOf (cs : List Criterion) :
    (readingOf cs).filterMap Token.leaf? = cs.filterMap Criterion.compared? := by
  induction cs with
  | nil => rfl
  | cons c cs ih =>
    rw [readingOf_cons, List.filterMap_append, ih, c.leaves_tokens, List.filterMap_cons]
    cases c.compared? <;> rfl

theorem countP_readingOf (cs : List Criterion) :
    (readingOf cs).countP Token.brackets.opens = cs.countP Criterion.brackets.opens ∧
      (readingOf cs).countP Token.brackets.closes = cs.countP Criterion.brackets.closes := by
  induction cs with
  | nil => exact ⟨rfl, rfl⟩
  | cons c cs ih =>
    rw [← List.singleton_append, List.countP_append, List.countP_append, ← ih.1, ← ih.2,
      ← c.countP_opens_tokens c.compared?, ← c.countP_closes_tokens c.compared?]
    simp

/-- What criteria say: nothing, or an expression. Whatever logical operator comes first of all, it
connects nothing. -/
def Reads (cs : List Criterion) : Option (Expression Criterion) → Prop
  | none => cs = []
  | some e => ∃ logical, readingOf cs = e.tokens logical

/-- Criteria read as an expression when they bring its tokens, and as none when there are none. -/
theorem Reads.elim_tokens {cs : List Criterion} {e? : Option (Expression Criterion)}
    (h : Reads cs e?) : ∃ l, e?.elim [] (·.tokens l) = readingOf cs := by
  cases e? with
  | none =>
    obtain rfl : cs = [] := h
    exact ⟨.undefined, rfl⟩
  | some e =>
    obtain ⟨l, hl⟩ := h
    exact ⟨l, hl.symm⟩

/-- Criteria say one thing at most. -/
theorem Reads.unique {cs : List Criterion} {e? e?' : Option (Expression Criterion)}
    (h : Reads cs e?) (h' : Reads cs e?') : e? = e?' := by
  obtain ⟨l, hl⟩ := h.elim_tokens
  obtain ⟨l', hl'⟩ := h'.elim_tokens
  exact elim_tokens_inj (hl.trans hl'.symm)

/-! ## The group that has been open longest -/

/-- A bracket that opens begins a criterion. -/
theorem exists_append_of_readingOf {cs : List Criterion} {ts inner : List (Token Criterion)}
    {l : Logical} (h : readingOf cs = ts ++ .opening l :: inner) :
    ∃ before after, cs = before ++ after ∧ readingOf before = ts ∧
      readingOf after = .opening l :: inner := by
  induction cs generalizing ts with
  | nil => simp at h
  | cons c cs ih =>
    cases ts with
    | nil => exact ⟨[], c :: cs, rfl, rfl, h⟩
    | cons t ts =>
      rcases List.append_eq_append_iff.1 h with ⟨us, hts, hr⟩ | ⟨us, hc, hr⟩
      · obtain ⟨before, after, rfl, hb, ha⟩ := ih hr
        exact ⟨c :: before, after, rfl, by rw [readingOf_cons, hb, ← hts], ha⟩
      · cases us with
        | nil =>
          have hrest : readingOf cs = [] ++ .opening l :: inner := hr.symm
          obtain ⟨before, after, rfl, hb, ha⟩ := ih hrest
          exact ⟨c :: before, after, rfl, by simp [hb, hc], ha⟩
        | cons u us =>
          -- The bracket would stand among the tokens of `c`, behind the first of them.
          obtain ⟨rfl, -⟩ := List.cons.inj hr
          exact absurd (by simp [hc]) (c.opening_not_mem_tail c.compared? l)

/-- A group that is never closed by the tokens is never closed by the criteria. -/
theorem staysOpen_of_readingOf {cs : List Criterion} {l : Logical}
    {inner : List (Token Criterion)} (hcs : ∀ c ∈ cs, c.tokens c.compared? ≠ [])
    (h : readingOf cs = .opening l :: inner) (hinner : Token.brackets.Guarded inner) :
    Criterion.brackets.StaysOpen cs := by
  intro n hn
  obtain ⟨ho, hc⟩ := countP_readingOf (cs.take n)
  have htake : readingOf (cs.take n) =
      (Token.opening l :: inner).take (readingOf (cs.take n)).length := by
    rw [← h, ← List.prefix_iff_eq_take]
    exact ⟨readingOf (cs.drop n), by rw [← readingOf_append, List.take_append_drop]⟩
  have hpos : 0 < (readingOf (cs.take n)).length := by
    cases cs with
    | nil => cases h
    | cons c cs =>
      obtain ⟨n, rfl⟩ : ∃ m, n = m + 1 := ⟨n - 1, by omega⟩
      have := List.length_pos_iff.2 (hcs c (.head _))
      simp only [List.take_succ_cons, readingOf_cons, List.length_append]
      omega
  have hopen := hinner.staysOpen_cons (b := Token.brackets) (x := .opening l) rfl _ hpos
  rw [← htake] at hopen
  rwa [← ho, ← hc]

/-- What has been read of the top level comes from the criteria before the group that has been open
longest, and from all criteria when no group is open. -/
theorem exists_reads_append {cs : List Criterion} {o : Outline Criterion}
    (hcs : ∀ c ∈ cs, c.tokens c.compared? ≠ []) (h : Outline.empty.read? (readingOf cs) = some o) :
    ∃ before after, cs = before ++ after ∧ Reads before o.topLevel? ∧
      (o.depth = 0 → after = []) ∧ (0 < o.depth → Criterion.brackets.StaysOpen after) := by
  obtain ⟨l, hl⟩ := Outline.tokens_read? h .undefined
  obtain ⟨rest, hrest, hclosed, hopen⟩ := o.tokens_eq_topLevel l
  have hreading : readingOf cs = o.topLevel?.elim [] (·.tokens l) ++ rest := by
    rw [← hrest, hl]
    rfl
  have hreads {before : List Criterion} (hb : ∀ c ∈ before, c ∈ cs)
      (h : readingOf before = o.topLevel?.elim [] (·.tokens l)) : Reads before o.topLevel? := by
    cases ho : o.topLevel? with
    | some e => exact ⟨l, by rw [h, ho]; rfl⟩
    | none =>
      cases before with
      | nil => rfl
      | cons c before =>
        rw [ho] at h
        exact absurd (List.append_eq_nil_iff.1 h).1 (hcs c (hb c (.head _)))
  rcases Nat.eq_zero_or_pos o.depth with hd | hd
  · rw [hclosed hd, List.append_nil] at hreading
    exact ⟨cs, [], (List.append_nil cs).symm, hreads (fun _ h => h) hreading, fun _ => rfl,
      fun h => absurd h (by omega)⟩
  · obtain ⟨l', inner, rfl, hinner⟩ := hopen hd
    obtain ⟨before, after, rfl, hb, ha⟩ := exists_append_of_readingOf hreading
    exact ⟨before, after, rfl, hreads (fun _ h => List.mem_append_left _ h) hb,
      fun h => absurd h (by omega),
      fun _ => staysOpen_of_readingOf (fun c h => hcs c (List.mem_append_right _ h)) ha hinner⟩

end QueryCriteria
