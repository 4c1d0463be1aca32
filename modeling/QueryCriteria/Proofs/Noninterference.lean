import QueryCriteria.Proofs.Agreement
import QueryCriteria.Proofs.DirectorySearch.Blanking
import QueryCriteria.Proofs.EntityQuery.Blanking
/-!
# Values do not shape a query

Two runs of calls whose criteria differ only in the values they carry have the same outcomes, and
what they leave looks alike at every step: an entity query up to the values it binds, the filter of
a directory search up to its literals. A directory search does look at whether a value is a list,
and refuses one; so the values it is given must be none.
-/

namespace QueryCriteria

/-- A filter, and every group that is still open, is the same up to literals. -/
structure DirectorySearch.Draft.SameFilter (d d' : DirectorySearch.Draft) : Prop where
  filter : d.filter?.map Filter.blanked = d'.filter?.map Filter.blanked
  frames : d.frames.map Frame.blanked = d'.frames.map Frame.blanked

theorem DirectorySearch.Draft.sameFilter_of_blanked {d d' : DirectorySearch.Draft}
    (h : d.blanked = d'.blanked) : SameFilter d d' where
  filter := by rw [← filter?_blanked, h, filter?_blanked]
  frames := congrArg frames h

/-- Where two runs of calls differ only in values, every call has the same outcome in both, and
after every call the drafts look alike. -/
theorem values_unseen :
    (∀ (d : EntityQuery.Draft) (calls calls' : List EntityQuery.Call),
      calls.map EntityQuery.Call.blanked = calls'.map EntityQuery.Call.blanked →
        outcomes EntityQuery.Draft.perform d calls = outcomes EntityQuery.Draft.perform d calls' ∧
        ∀ n, EntityQuery.Draft.SameQuery (d.run (calls.take n)) (d.run (calls'.take n))) ∧
    (∀ (e : DirectorySearch.Draft) (calls calls' : List DirectorySearch.Call),
      calls.map DirectorySearch.Call.blanked = calls'.map DirectorySearch.Call.blanked →
      (∀ call ∈ calls, ∀ c ∈ call.restrictions, c.Scalar) →
      (∀ call ∈ calls', ∀ c ∈ call.restrictions, c.Scalar) →
        outcomes DirectorySearch.Draft.perform e calls =
          outcomes DirectorySearch.Draft.perform e calls' ∧
        ∀ n, DirectorySearch.Draft.SameFilter (e.run (calls.take n)) (e.run (calls'.take n))) := by
  constructor
  · intro d calls calls' h
    refine ⟨(EntityQuery.Draft.outcomes_of_blanked h).1, fun n => ?_⟩
    have htake : (calls.take n).map EntityQuery.Call.blanked =
        (calls'.take n).map EntityQuery.Call.blanked := by
      rw [List.map_take, h, List.map_take]
    exact EntityQuery.Draft.sameQuery_of_blanked (EntityQuery.Draft.outcomes_of_blanked htake).2
  · intro e calls calls' h hscalar hscalar'
    refine ⟨(DirectorySearch.Draft.outcomes_of_blanked hscalar hscalar' h).1, fun n => ?_⟩
    have htake : (calls.take n).map DirectorySearch.Call.blanked =
        (calls'.take n).map DirectorySearch.Call.blanked := by
      rw [List.map_take, h, List.map_take]
    exact DirectorySearch.Draft.sameFilter_of_blanked (DirectorySearch.Draft.outcomes_of_blanked
      (fun call hcall => hscalar call (List.mem_of_mem_take hcall))
      (fun call hcall => hscalar' call (List.mem_of_mem_take hcall)) htake).2

/-- A value that is a piece of query text, or of a filter, does no more than a name does. -/
theorem values_unseen_forged : ∃ e, DirectorySearch.Draft.create .people = .ok e ∧
    let d := EntityQuery.Draft.start "Person" "person"
    let named (v : String) := Criterion.comparing "name" .equal (.string v)
    let calls (v : String) : List EntityQuery.Call :=
      [.add (named v), .addAll [(named v).withLogical .or, named v], .addJoin (named v)]
    let lookups (v : String) : List DirectorySearch.Call :=
      [.add (named v), .addAll [(named v).withLogical .or, named v], .addOrder (named v)]
    let forged := "x' or '1'='1"
    let lookupForged := "x)(uid=*"
    outcomes EntityQuery.Draft.perform d (calls "Ann") =
        [.ok (), .error (.missingLogical "name"), .error .notAJoin] ∧
      (d.run (calls forged)).text = "select person from Person person where person.name = :param1" ∧
      (e.run (lookups lookupForged)).filterText =
        "(&(&(objectclass=person)(objectclass=top))(cn=x\\29\\28uid=*))" ∧
      (outcomes EntityQuery.Draft.perform d (calls "Ann") =
          outcomes EntityQuery.Draft.perform d (calls forged) ∧
        ∀ n, EntityQuery.Draft.SameQuery (d.run ((calls "Ann").take n))
          (d.run ((calls forged).take n))) ∧
      (outcomes DirectorySearch.Draft.perform e (lookups "Ann") =
          outcomes DirectorySearch.Draft.perform e (lookups lookupForged) ∧
        ∀ n, DirectorySearch.Draft.SameFilter (e.run ((lookups "Ann").take n))
          (e.run ((lookups lookupForged).take n))) := by
  have he : DirectorySearch.Draft.create .people = .ok _ := rfl
  refine ⟨_, he, ?_⟩
  intro d named calls lookups forged lookupForged
  have hscalar (v : String) : ∀ call ∈ lookups v, ∀ c ∈ call.restrictions, c.Scalar := by
    simp [lookups, named, DirectorySearch.Call.restrictions, Criterion.Scalar, Criterion.comparing,
      Criterion.restriction, Criterion.withLogical, Value.isList]
  exact ⟨rfl, by decide, by decide, values_unseen.1 d (calls "Ann") (calls forged) rfl,
    values_unseen.2 _ (lookups "Ann") (lookups lookupForged) rfl (hscalar _) (hscalar _)⟩

end QueryCriteria
