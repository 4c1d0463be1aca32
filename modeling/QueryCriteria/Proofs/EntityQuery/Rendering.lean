import QueryCriteria.EntityQuery.Fetching
import QueryCriteria.Proofs.EntityQuery.Spelling
/-!
# The text of a where clause

A new draft takes a spelling of an expression and compiles to its text, with the parameters numbered
from the left; and what a new draft takes and compiles is the spelling of one expression
(`compiles_spelling`).
-/

open QueryCriteria.DirectorySearch (Connective)
open QueryCriteria.EntityQuery (Fragment)
open QueryCriteria.EntityQuery.Draft (leafOf)

namespace QueryCriteria

/-! ## Text -/

/-- The word for a connective, with the spaces around it. -/
def DirectorySearch.Connective.word : Connective → String
  | .and => " and "
  | .or => " or "

theorem DirectorySearch.Connective.text_fragment (c : Connective) : c.fragment.text = c.word := by
  cases c <;> rfl

mutual
/-- The text of a term of an entity that goes by `rootAlias`, where `n` is the number of the next
parameter. -/
def Term.text (rootAlias : String) (n : Nat) : Term Restriction → String
  | .leaf r => r.text rootAlias n
  | .group e => "(" ++ e.text rootAlias n ++ ")"

/-- The text of an expression: its terms with the words for the connectives between them. -/
def Expression.text (rootAlias : String) (n : Nat) : Expression Restriction → String
  | .single t => t.text rootAlias n
  | .connected e c t =>
    e.text rootAlias n ++ c.word ++ t.text rootAlias (n + (valuesOf e.leaves).length)
end

/-! ## Numbers -/

mutual
/-- A term with the numbers of its parameters, where `n` is the next one. -/
def Term.numbered (n : Nat) : Term Restriction → Term (Nat × Restriction)
  | .leaf r => .leaf (n, r)
  | .group e => .group (e.numbered n)

/-- An expression with the numbers of its parameters, where `n` is the next one. -/
def Expression.numbered (n : Nat) : Expression Restriction → Expression (Nat × Restriction)
  | .single t => .single (t.numbered n)
  | .connected e c t =>
    .connected (e.numbered n) c (t.numbered (n + (valuesOf e.leaves).length))
end

mutual
/-- Numbers are given in the order of the tokens. -/
theorem Term.tokens_numbered : ∀ (t : Term Restriction) (n : Nat) (l : Logical),
    (t.numbered n).tokens l = number n (t.tokens l)
  | .leaf r, n, l => rfl
  | .group e, n, l => by
    have ih := e.tokens_numbered n .undefined
    simp [Term.numbered, Term.tokens, number, number_append, ih]

theorem Expression.tokens_numbered : ∀ (e : Expression Restriction) (n : Nat) (l : Logical),
    (e.numbered n).tokens l = number n (e.tokens l)
  | .single t, n, l => t.tokens_numbered n l
  | .connected e c t, n, l => by
    have he := e.tokens_numbered n l
    have ht := t.tokens_numbered (n + (valuesOf e.leaves).length) c.logical
    have hleaves : restrictionsOf (e.tokens l) = e.leaves := e.leaves_tokens l
    rw [Expression.tokens, number_append, hleaves, ← he, ← ht]
    rfl
end

mutual
/-- The fragments of a term write its text. -/
theorem Term.join_fragments (rootAlias : String) : ∀ (t : Term Restriction) (n : Nat),
    String.join (((t.numbered n).fragments (leafOf rootAlias)).map Fragment.text) =
      t.text rootAlias n
  | .leaf r, n => by
    simpa [Term.numbered, Term.fragments, Term.text, Fragment.text] using
      r.text_predicate rootAlias n
  | .group e, n => by
    have ih := e.join_fragments rootAlias n
    simp [Term.numbered, Term.fragments, Term.text, Fragment.text, ih, String.append_assoc]

theorem Expression.join_fragments (rootAlias : String) : ∀ (e : Expression Restriction) (n : Nat),
    String.join (((e.numbered n).fragments (leafOf rootAlias)).map Fragment.text) =
      e.text rootAlias n
  | .single t, n => t.join_fragments rootAlias n
  | .connected e c t, n => by
    have he := e.join_fragments rootAlias n
    have ht := t.join_fragments rootAlias (n + (valuesOf e.leaves).length)
    simp [Expression.numbered, Expression.fragments, Expression.text, c.text_fragment, he, ht,
      String.append_assoc]
end

/-! ## Drafts -/

namespace EntityQuery.Draft

variable {entity : String} {schema : Schema} {settings : Settings} {d d' : Draft}
  {cs : List Criterion}

/-- Behind the text of a new draft stands what its criteria write, and nothing else. -/
theorem text_addAll (h : create entity schema settings = .ok d) (hadd : d.addAll cs = .ok d') :
    d'.text = d.text ++ String.join (d'.restrictions.map Fragment.text) := by
  obtain ⟨restrictions, parameters, openGroups, restrictionCriteria, rfl⟩ :
      ∃ restrictions parameters openGroups restrictionCriteria, d' =
        { d with restrictions, parameters, openGroups, restrictionCriteria } := by
    refine foldlM_ok_invariant (P := fun d' => ∃ restrictions parameters openGroups
      restrictionCriteria, d' =
        { d with restrictions, parameters, openGroups, restrictionCriteria }) ?_ ?_ hadd
    · rintro _ c d₂ ⟨_, _, _, _, rfl⟩ h₂
      obtain ⟨more, value, openGroups, -, rfl, -⟩ := add_cases h₂
      exact ⟨_, _, _, _, rfl⟩
    · exact ⟨_, _, _, _, rfl⟩
  obtain ⟨root, joins, joinCriteria, hints, -, rfl⟩ := create_eq_ok h
  -- Opened by definition: the equation of so long a text is slow to derive.
  delta text
  simp [start, isDistinct, ordersText]

/-- What a draft compiles to when it has read an expression and nothing is open. -/
theorem Follows.compile_eq {rootAlias : String} {ts : List (Token Restriction)}
    {e : Expression (Nat × Restriction)} (h : Follows rootAlias ts ⟨[], some e⟩ d) :
    d.compile = .ok ⟨d.text, d.parameters, d.hints⟩ ∧
      d.restrictions = .whereWord :: e.fragments (leafOf rootAlias) := by
  have hclosed : d.openGroups = 0 := h.writes.openGroups
  refine ⟨by simp [compile, hclosed], ?_⟩
  rw [h.writes.restrictions]
  simp [Outline.fragments, Outline.body, Outline.groupFragments]

/-- A spelling of an expression is taken, and compiles to the text of the expression. -/
theorem compile_of_spells (h : create entity schema settings = .ok d)
    {e : Expression Restriction} {l : Logical} (hcs : Spells cs (e.tokens l)) :
    ∃ d' q, d.addAll cs = .ok d' ∧ d'.compile = .ok q ∧
      q.text = d.text ++ " where " ++ e.text d.rootAlias 1 ∧
      q.parameters.toList = named (valuesOf e.leaves) := by
  have hread : Outline.empty.read? (number 1 (e.tokens l)) = some ⟨[], some (e.numbered 1)⟩ := by
    rw [← e.tokens_numbered]
    exact (e.numbered 1).read?_tokens_empty l
  have hagrees : Agrees (Follows d.rootAlias (e.tokens l))
      (Outline.empty.read? (number 1 (e.tokens l))) (d.addAll cs) :=
    addAll_agrees (follows_create h).2 hcs
  obtain ⟨d', hadd, hd'⟩ := (hread ▸ hagrees).of_some
  obtain ⟨hcompile, hrestrictions⟩ := hd'.compile_eq
  refine ⟨d', _, hadd, hcompile, ?_, ?_⟩
  · have htext := e.join_fragments d.rootAlias 1
    simp only [text_addAll h hadd, hrestrictions, List.map_cons, String.join_cons, htext]
    simp [Fragment.text, String.append_assoc]
  · have hleaves : restrictionsOf (e.tokens l) = e.leaves := e.leaves_tokens l
    rw [← hleaves]
    exact hd'.parameters

/-- What is taken and compiles spells an expression, unless it is nothing. -/
theorem exists_spells_of_compile (h : create entity schema settings = .ok d) (hne : cs ≠ [])
    (hadd : d.addAll cs = .ok d') {q : EntityQuery} (hq : d'.compile = .ok q) :
    ∃ (e : Expression Restriction) (l : Logical), Spells cs (e.tokens l) := by
  obtain ⟨ts, hcs⟩ := spells_of_addAll hadd
  obtain ⟨o, hread, hd'⟩ := (hadd ▸ addAll_agrees (follows_create h).2 hcs).of_ok
  obtain ⟨-, current, rfl⟩ := hd'.of_compile hq
  obtain ⟨l, hl⟩ := Outline.elim_tokens_of_read? hread
  have htokens : (current.elim [] (·.tokens l)).map (Token.map Prod.snd) = ts := by
    rw [← map_number 1 ts]
    exact congrArg (List.map (Token.map Prod.snd)) hl
  cases current with
  | none =>
    obtain rfl : ts = [] := htokens.symm
    exact absurd hcs.eq_nil hne
  | some e =>
    refine ⟨e.map Prod.snd, l, ?_⟩
    rw [e.tokens_map]
    exact htokens ▸ hcs

/-- A new draft compiles the spellings of expressions, to their text, and nothing else. -/
structure CompilesSpelling (d : Draft) (cs : List Criterion) : Prop where
  /-- A spelling of an expression is taken as a whole and compiles. Its text stands behind the word
  "where", with the parameters numbered from the left. -/
  accepts : ∀ (e : Expression Restriction) (l : Logical), Spells cs (e.tokens l) →
    ∃ d' q, d.addAll cs = .ok d' ∧ d'.compile = .ok q ∧
      q.text = d.text ++ " where " ++ e.text d.rootAlias 1 ∧
      q.parameters.toList = named (valuesOf e.leaves)
  /-- Criteria that are taken as a whole and compile spell one expression, if there are any. -/
  only : cs ≠ [] → ∀ d' q, d.addAll cs = .ok d' → d'.compile = .ok q →
    ∃ e : Expression Restriction, (∃ l, Spells cs (e.tokens l)) ∧
      ∀ e' l', Spells cs (e'.tokens l') → e' = e

/-- A new draft takes exactly the spellings of expressions, and renders them. -/
theorem compiles_spelling (h : create entity schema settings = .ok d) (cs : List Criterion) :
    CompilesSpelling d cs := by
  constructor
  · intro e l hcs
    exact compile_of_spells h hcs
  · intro hne d' q hadd hq
    obtain ⟨e, l, hcs⟩ := exists_spells_of_compile h hne hadd hq
    refine ⟨e, ⟨l, hcs⟩, ?_⟩
    intro e' l' hcs'
    exact Expression.tokens_inj (hcs'.unique hcs)

/-- The group is opened by its first comparison, which brings a connective that connects nothing, and
closed by a bracket of its own, whose operand and connective say nothing. -/
theorem compiles_spelling_group : ∃ d,
    create "Address" (Schema.ofList [⟨"Address", []⟩]) ⟨.disabled, 3⟩ = .ok d ∧
    let city : Restriction := ⟨"city", .equal, some (.string "Mesa"), rfl, rfl, rfl⟩
    let street : Restriction := ⟨"street", .isNull, none, rfl, rfl, rfl⟩
    let tags : Restriction := ⟨"tags", .memberOf, some (.boolean true), rfl, rfl, rfl⟩
    let either : Expression Restriction :=
      .connected (.single (.leaf city)) .or (.leaf street)
    let e : Expression Restriction := .connected (.single (.group either)) .and (.leaf tags)
    let cs : List Criterion :=
      [city.criterion .or .opening, street.criterion .or .undefined,
        { operand := some "city", logical := .or, enclosure := .closing },
        tags.criterion .and .undefined]
    Spells cs (e.tokens .or) ∧
      d.text = "select address from Address address" ∧
      e.text d.rootAlias 1 = "(address.city = :param1 or address.street is null) and " ++
        ":param2 member of address.tags" ∧
      CompilesSpelling d cs := by
  have h : create "Address" (Schema.ofList [⟨"Address", []⟩]) ⟨.disabled, 3⟩ = .ok _ := rfl
  refine ⟨_, h, ?_⟩
  intro city street tags either e cs
  have hcs := Spells.cons (.opener city .or) (.cons (.restriction street .or)
    (.cons (.closing (some "city") none .or) (.cons (.restriction tags .and) .nil)))
  exact ⟨hcs, by decide, by decide, compiles_spelling h cs⟩

end EntityQuery.Draft

end QueryCriteria
