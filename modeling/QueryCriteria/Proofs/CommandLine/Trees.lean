import Mathlib.Data.List.Forall2
import QueryCriteria.DirectorySearch.Basic
import QueryCriteria.EntityQuery.Basic
import QueryCriteria.Proofs.CriteriaSet
import QueryCriteria.Proofs.Json.Layout
/-!
# Trees of queries

The members of the JSON tree of a query are told by their names (`EntityQuery.writtenAs_iff`,
`DirectorySearch.writtenAs_iff`). All numbers in a tree are made of digits
(`EntityQuery.solid_toJson`, `DirectorySearch.solid_toJson`), so that it can be laid out.
-/

namespace QueryCriteria

/-! ## Members -/

namespace EntityQuery

/-- The words for hints. -/
inductive FetchHint.HasWord : FetchHint → String → Prop
  | batchFetch : HasWord .batchFetch "batch_fetch"
  | leftFetch : HasWord .leftFetch "left_fetch"

theorem FetchHint.hasWord_iff {hint : FetchHint} {word : String} :
    hint.HasWord word ↔ hint.word = word := by
  constructor
  · rintro (_ | _) <;> rfl
  · rintro rfl
    cases hint with
    | batchFetch => exact .batchFetch
    | leftFetch => exact .leftFetch

/-- The tree of a query has its text, its parameters by their names and, if there are any, the words
of its hints by their paths, in this order. -/
inductive WrittenAs (q : EntityQuery) : Json → Prop
  | bare (hnone : q.hints.entries = []) : WrittenAs q (.object [
      ("ql", .string q.text),
      ("parameters", .object (q.parameters.toList.map fun p => (p.1, p.2.toJson)))])
  | hinted {hints : List (String × Json)} (hsome : q.hints.entries ≠ [])
      (hhints : List.Forall₂ (fun hint member =>
        ∃ word, hint.2.HasWord word ∧ (hint.1, Json.string word) = member) q.hints.entries hints) :
    WrittenAs q (.object [
      ("ql", .string q.text),
      ("parameters", .object (q.parameters.toList.map fun p => (p.1, p.2.toJson))),
      ("hints", .object hints)])

theorem forall₂_hints_iff {entries : List (String × FetchHint)} {hints : List (String × Json)} :
    List.Forall₂ (fun hint member =>
        ∃ word, hint.2.HasWord word ∧ (hint.1, Json.string word) = member) entries hints ↔
      (entries.map fun hint => (hint.1, Json.string hint.2.word)) = hints := by
  simp only [FetchHint.hasWord_iff, exists_eq_left', ← List.forall₂_map_left_iff,
    List.forall₂_eq_eq_eq]

theorem writtenAs_iff (q : EntityQuery) (j : Json) : q.WrittenAs j ↔ q.toJson = j := by
  have hempty : q.hints.isEmpty = q.hints.entries.isEmpty := rfl
  have hbare (h : q.hints.entries = []) : q.toJson = .object [
      ("ql", .string q.text),
      ("parameters", .object (q.parameters.toList.map fun p => (p.1, p.2.toJson)))] := by
    rw [toJson, hintsToJson?, hempty, h]
    rfl
  have hhinted (h : q.hints.entries ≠ []) : q.toJson = .object [
      ("ql", .string q.text),
      ("parameters", .object (q.parameters.toList.map fun p => (p.1, p.2.toJson))),
      ("hints", .object (q.hints.entries.map fun hint => (hint.1, .string hint.2.word)))] := by
    rw [toJson, hintsToJson?, hempty, List.isEmpty_eq_false_iff.2 h]
    rfl
  constructor
  · rintro (hnone | ⟨hsome, hhints⟩)
    · exact hbare hnone
    · rw [hhinted hsome, forall₂_hints_iff.1 hhints]
  · rintro rfl
    by_cases h : q.hints.entries = []
    · rw [hbare h]
      exact .bare h
    · rw [hhinted h]
      exact .hinted h (forall₂_hints_iff.2 rfl)

end EntityQuery

namespace DirectorySearch

/-- The words for scopes. -/
inductive Scope.HasWord : Scope → String → Prop
  | one : HasWord .one "one"
  | subtree : HasWord .subtree "subtree"

theorem Scope.hasWord_iff {scope : Scope} {word : String} :
    scope.HasWord word ↔ scope.word = word := by
  constructor
  · rintro (_ | _) <;> rfl
  · rintro rfl
    cases scope with
    | one => exact .one
    | subtree => exact .subtree

/-- The tree of a search has its filter, its base and the word of its scope, in this order. -/
inductive WrittenAs (s : DirectorySearch) : Json → Prop
  | object {scope : String} (hscope : s.searchScope.HasWord scope) : WrittenAs s (.object [
      ("filter", .string s.filter),
      ("search_base", .string s.searchBase),
      ("search_scope", .string scope)])

theorem writtenAs_iff (s : DirectorySearch) (j : Json) : s.WrittenAs j ↔ s.toJson = j := by
  constructor
  · rintro ⟨hscope⟩
    rw [toJson, Scope.hasWord_iff.1 hscope]
  · rintro rfl
    exact .object (Scope.hasWord_iff.2 rfl)

end DirectorySearch

/-! ## Numbers -/

namespace Json

theorem solid_present {members : List (String × Option Json)}
    (h : ∀ member ∈ members, ∀ j ∈ member.2, j.Solid) : (present members).Solid :=
  .object (forall_mem_present.2 h)

theorem solid_float (x : Float) : (Json.float x).Solid := by
  unfold Json.float
  cases hnumber : Number.ofFloat? x with
  | none => exact .null
  | some n => exact .number (Number.ofDigits_ofFloat? hnumber)

end Json

namespace Value

mutual
theorem solid_toJson : ∀ v : Value, v.toJson.Solid
  | .string s => .string s
  | .integer i => .number (Json.Number.ofDigits_ofInt i.toInt)
  | .float x => Json.solid_float x
  | .boolean b => .bool b
  | .entity type id => .object (by simpa using ⟨.string type, .string id⟩)
  | .list items => .array (solid_toJsonItems items)

theorem solid_toJsonItems : ∀ items : List Value, ∀ j ∈ toJsonItems items, j.Solid
  | [] => by simp [toJsonItems]
  | item :: items => by
    rw [toJsonItems, List.forall_mem_cons]
    exact ⟨solid_toJson item, solid_toJsonItems items⟩
end

end Value

theorem EntityQuery.solid_toJson (q : EntityQuery) : q.toJson.Solid := by
  have hparameters : q.parameters.toJson.Solid := by
    apply Json.Solid.object
    intro member hmember
    obtain ⟨⟨name, value⟩, -, rfl⟩ := List.mem_map.1 hmember
    exact value.solid_toJson
  have hhints : ∀ j ∈ hintsToJson? q.hints, j.Solid := by
    unfold hintsToJson?
    split
    · exact nofun
    · rintro _ ⟨⟩
      apply Json.Solid.object
      intro member hmember
      obtain ⟨⟨name, hint⟩, -, rfl⟩ := List.mem_map.1 hmember
      exact .string _
  apply Json.solid_present
  simpa using ⟨.string q.text, hparameters, hhints⟩

theorem DirectorySearch.solid_toJson (s : DirectorySearch) : s.toJson.Solid := by
  apply Json.Solid.object
  simpa using ⟨.string s.filter, .string s.searchBase, .string s.searchScope.word⟩

end QueryCriteria
