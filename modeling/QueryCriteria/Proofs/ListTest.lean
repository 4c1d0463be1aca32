import QueryCriteria.Proofs.DirectorySearch.ListTest
import QueryCriteria.Proofs.EntityQuery.ListTest
/-!
# Lists as atoms

A test against a list acts as a single comparison that is true when the test says so. Wherever both
kinds of drafts take the comparisons one by one they take the list, and go on behind it as behind
the single comparison (`ListTest.acts_as_atom`).
-/

namespace QueryCriteria.ListTest

/-- An empty list is rejected. Any other one, with or without a connective, is taken in every state
in which a draft takes each of its comparisons with that connective. It adds one comparison for each
value, leaves no more groups open, and whatever comes behind, the condition is the one with a single
comparison in its place, true of what the test says of the many. -/
theorem acts_as_atom (test : ListTest) (logical : Logical) (operand : String) :
    test.connected logical operand [] = .error (.missingValues test.purpose operand) ∧
    ∀ values : List Value, values ≠ [] → ∃ cs, test.connected logical operand values = .ok cs ∧
      (∀ (entity : String) (schema : Schema) (settings : Settings) (d₀ : EntityQuery.Draft)
          (before : List EntityQuery.Call),
        EntityQuery.Draft.create entity schema settings = .ok d₀ →
        (∀ v ∈ values, ∃ d', (d₀.run before).add
          ((test.criterion operand v).withLogical logical) = .ok d') →
        ∃ d₁, (d₀.run before).addAll cs = .ok d₁ ∧
          EntityQuery.Draft.TakesList test operand values (d₀.run before) d₁ ∧
          ∀ v d₂, (d₀.run before).add ((test.criterion operand v).withLogical logical) = .ok d₂ →
            ∀ calls, EntityQuery.Draft.GoesOnAlike test (d₀.run before).predicates.length
              values.length d₁ d₂ calls) ∧
      (∀ (mapping : DirectorySearch.Mapping) (d₀ : DirectorySearch.Draft)
          (before : List DirectorySearch.Call),
        DirectorySearch.Draft.create mapping = .ok d₀ →
        (∀ v ∈ values, ∃ d', (d₀.run before).add
          ((test.criterion operand v).withLogical logical) = .ok d') →
        ∃ d₁, (d₀.run before).addAll cs = .ok d₁ ∧
          DirectorySearch.Draft.TakesList test operand values (d₀.run before) d₁ ∧
          ∀ v d₂, (d₀.run before).add ((test.criterion operand v).withLogical logical) = .ok d₂ →
            ∀ calls, DirectorySearch.Draft.GoesOnAlike test
              (DirectorySearch.comparisonsOf (d₀.run before).frames).length values.length
              d₁ d₂ calls) := by
  refine ⟨test.connected_nil logical operand, fun values hvalues => ?_⟩
  obtain ⟨value, values, rfl⟩ := List.exists_cons_of_ne_nil hvalues
  refine ⟨_, test.connected_cons logical operand value values, ?_, ?_⟩
  · intro entity schema settings d₀ before hcreate hadd
    obtain ⟨d', hd'⟩ := hadd value (.head _)
    exact EntityQuery.Draft.takesList_of_add hcreate before hd'
  · intro mapping d₀ before hcreate hadd
    have htracks := DirectorySearch.Draft.tracks_run hcreate before
    obtain ⟨d₁, hall, htakes⟩ := htracks.takesList hadd
    exact ⟨d₁, hall, htakes, fun v d₂ hd₂ calls => htracks.goesOnAlike hall hd₂ calls⟩

/-- A list behind another comparison, with a comparison to come: in both queries it stands in
brackets, while a single value stands alone. -/
theorem acts_as_atom_isNotIn : ∃ d e,
    EntityQuery.Draft.create "Person" (Schema.ofList [⟨"Person", []⟩]) ⟨.disabled, 3⟩ = .ok d ∧
    DirectorySearch.Draft.create .people = .ok e ∧
    let mail := Criterion.comparing "mail" .equal (.string "m")
    let more := (Criterion.comparing "mail" .notEqual (.string "n")).withLogical .and
    ∃ cs d₁ d₂ e₁ e₂,
      isNotIn.connected .or "name" [.string "Ann", .string "Bob"] = .ok cs ∧
      (d.run [.add mail]).addAll cs = .ok d₁ ∧ (e.run [.add mail]).addAll cs = .ok e₁ ∧
      (d.run [.add mail]).add ((isNotIn.criterion "name" (.string "Ann")).withLogical .or) =
        .ok d₂ ∧
      (e.run [.add mail]).add ((isNotIn.criterion "name" (.string "Ann")).withLogical .or) =
        .ok e₂ ∧
      String.join ((d₁.run [.add more]).restrictions.map EntityQuery.Fragment.text) =
        " where person.mail = :param1 or (person.name <> :param2 and person.name <> :param3)" ++
          " and person.mail <> :param4" ∧
      (e₁.run [.add more]).filterText =
        "(&(|(&(&(objectclass=person)(objectclass=top))(mail=m))(&(!cn=Ann)(!cn=Bob)))(!mail=n))" ∧
      EntityQuery.Draft.TakesList isNotIn "name" [.string "Ann", .string "Bob"]
        (d.run [.add mail]) d₁ ∧
      DirectorySearch.Draft.TakesList isNotIn "name" [.string "Ann", .string "Bob"]
        (e.run [.add mail]) e₁ ∧
      EntityQuery.Draft.GoesOnAlike isNotIn 1 2 d₁ d₂ [.add more] ∧
      DirectorySearch.Draft.GoesOnAlike isNotIn 1 2 e₁ e₂ [.add more] := by
  have hd : EntityQuery.Draft.create "Person" (Schema.ofList [⟨"Person", []⟩]) ⟨.disabled, 3⟩ =
      .ok _ := rfl
  have he : DirectorySearch.Draft.create .people = .ok _ := rfl
  refine ⟨_, _, hd, he, ?_⟩
  intro mail more
  obtain ⟨cs, hcs, hentity, hdirectory⟩ := (acts_as_atom isNotIn .or "name").2
    [.string "Ann", .string "Bob"] (List.cons_ne_nil _ _)
  obtain ⟨d₁, hd₁, htakes, hgoesOn⟩ := hentity _ _ _ _ [.add mail] hd
    (by simp only [List.forall_mem_cons]; exact ⟨⟨_, rfl⟩, ⟨_, rfl⟩, by simp⟩)
  obtain ⟨e₁, he₁, htakes', hgoesOn'⟩ := hdirectory _ _ [.add mail] he
    (by simp only [List.forall_mem_cons]; exact ⟨⟨_, rfl⟩, ⟨_, rfl⟩, by simp⟩)
  refine ⟨cs, d₁, _, e₁, _, hcs, hd₁, he₁, rfl, rfl, ?_, ?_, htakes, htakes',
    hgoesOn (.string "Ann") _ rfl _, hgoesOn' (.string "Ann") _ rfl _⟩
  · cases hcs
    cases hd₁
    decide
  · cases hcs
    cases he₁
    decide

end QueryCriteria.ListTest
