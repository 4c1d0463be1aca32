import QueryCriteria.Proofs.CriteriaSet
import QueryCriteria.Proofs.DirectorySearch.Reference
import QueryCriteria.Proofs.EntityQuery.Blanking
/-!
# Taking a document

What a draft makes of a set is what it makes of the document of the set, read back, up to the
values an entity query binds. A directory search has a filter for the entity that a list of two
strings becomes, and none for the list: only there the two differ (`apply_read?`).
-/

namespace QueryCriteria

/-! ## Entity queries -/

namespace EntityQuery.Draft

/-- What is seen of a draft: its text, and whether it compiles. -/
def seen (d : Draft) : String × Except Fault Unit := (d.text, d.compile.map fun _ => ())

theorem seen_blanked (d : Draft) : d.blanked.seen = d.seen := by
  have hcompile : d.blanked.compile.map (fun _ => ()) = d.compile.map fun _ => () := by
    unfold compile
    rw [apply_ite (Except.map _), apply_ite (Except.map _)]
    rfl
  exact Prod.ext rfl hcompile

/-- Sets that differ in values only are taken alike. -/
theorem apply_seen {set set' : CriteriaSet} (h : set.blanked = set'.blanked) (d : Draft) :
    (d.apply set).map seen = (d.apply set').map seen := by
  have hseen (x : Except Fault Draft) : x.map seen = (x.map blanked).map seen := by
    cases x with
    | error fault => rfl
    | ok d => exact congrArg Except.ok (seen_blanked d).symm
  have hset := perform_blanked d (.apply set)
  have hset' := perform_blanked d (.apply set')
  rw [Call.blanked, h] at hset
  rw [hseen, hseen (d.apply set')]
  exact congrArg (Except.map seen) (hset.symm.trans hset')

end EntityQuery.Draft

theorem CriteriaSet.blanked_asRead (set : CriteriaSet) : set.asRead.blanked = set.blanked := by
  have hcriterion (c : Criterion) : c.asRead.blanked = c.blanked := by
    simp [Criterion.asRead, Criterion.blanked, Function.comp_def]
  simp [CriteriaSet.asRead, CriteriaSet.blanked, Function.comp_def, hcriterion]

/-! ## Directory searches -/

/-- But for a list of two strings, the literal of a value is that of what it is read as. -/
theorem Value.literal?_asRead {v : Value} (h : v.isPair = false) : v.asRead.literal? = v.literal? := by
  cases v with
  | list items =>
    rw [asRead_list h]
    rfl
  | _ => rfl

namespace DirectorySearch.Draft

/-- What is seen of a draft: its filter, and whether it compiles. -/
def seen (d : Draft) : String × Except Fault Unit := (d.filterText, d.compile.map fun _ => ())

/-- The draft without the record of the criteria it has taken. -/
def unrecorded (d : Draft) : Draft := { d with restrictionCriteria := [] }

theorem add_unrecorded (d : Draft) (c : Criterion) :
    (d.unrecorded.add c).map unrecorded = (d.add c).map unrecorded := by
  have hleaf : d.unrecorded.leaf? c = d.leaf? c := rfl
  unfold add
  rw [hleaf]
  cases d.leaf? c with
  | error fault => rfl
  | ok leaf =>
    have hframes : d.unrecorded.frames = d.frames := rfl
    simp only [ok_bind, hframes]
    cases place d.frames c leaf <;> rfl

theorem leaf?_asRead (d : Draft) {c : Criterion} (h : ∀ v ∈ c.value, v.isPair = false) :
    d.leaf? c.asRead = d.leaf? c := by
  have hleaf : d.leaf c.asRead = d.leaf c := by
    unfold leaf Criterion.requireValue Criterion.asRead
    cases hvalue : c.value with
    | none => rfl
    | some v =>
      simp only [Option.map_some, ok_bind, Value.literal?_asRead (h v hvalue)]
      rfl
  unfold leaf?
  rw [hleaf]
  rfl

/-- The value of a restriction that has a leaf is no list. -/
theorem isPair_of_leaf {d : Draft} {c : Criterion} {f : Filter} (h : d.leaf c = .ok f) :
    ∀ v ∈ c.value, v.isPair = false := by
  obtain ⟨hleaf, -⟩ := leaf_eq_ok_iff.1 h
  simp only [leafFor?, Option.bind_eq_bind, Option.bind_eq_some_iff] at hleaf
  obtain ⟨_, -, _, -, _, -, v, hvalue, literal, hliteral, -⟩ := hleaf
  rw [hvalue]
  rintro _ ⟨⟩
  cases v with
  | list items => cases hliteral
  | _ => rfl

/-- What a criterion brings to the filter, it brings as it is read too. -/
theorem leaf?_asRead_of_ok {d : Draft} {c : Criterion} {leaf : Option Filter}
    (h : d.leaf? c = .ok leaf) : d.leaf? c.asRead = d.leaf? c := by
  have hleaf := h
  unfold leaf? at hleaf
  obtain ⟨role, hrole, hleaf⟩ := bind_eq_ok_iff.1 hleaf
  cases role with
  | restriction =>
    cases hf : d.leaf c with
    | error fault =>
      rw [hf] at hleaf
      cases hleaf
    | ok f => exact leaf?_asRead d (isPair_of_leaf hf)
  | enclosure =>
    have hread : c.asRead.role = .ok .enclosure := hrole
    rw [leaf?, hread, leaf?, hrole]
    rfl
  | join | order => cases hleaf

theorem add_asRead (d : Draft) {c : Criterion} (h : d.leaf? c.asRead = d.leaf? c) :
    (d.unrecorded.add c.asRead).map unrecorded = (d.add c).map unrecorded := by
  rw [add_unrecorded]
  unfold add
  rw [h]
  cases d.leaf? c with
  | error fault => rfl
  | ok leaf =>
    have hplace : place d.frames c.asRead leaf = place d.frames c leaf := rfl
    simp only [ok_bind, hplace]
    cases place d.frames c leaf <;> rfl

theorem addAll_asRead {cs : List Criterion} (h : ∀ c ∈ cs, ∀ v ∈ c.value, v.isPair = false)
    (d : Draft) :
    (d.addAll (cs.map .asRead)).map unrecorded = (d.addAll cs).map unrecorded := by
  -- Both are the same run of a draft that records nothing.
  let add' (d : Draft) (c : Criterion) : Except Fault Draft := (d.add c).map unrecorded
  have hread : (cs.map .asRead).foldlM add' d.unrecorded = (d.addAll cs).map unrecorded :=
    foldlM_map (fun d c hc => add_asRead d (leaf?_asRead d (h c hc))) d
  have hplain : ((cs.map .asRead).map id).foldlM add' d.unrecorded =
      (d.addAll (cs.map .asRead)).map unrecorded :=
    foldlM_map (fun d c _ => add_unrecorded d c) d
  rw [← hplain, List.map_id, hread]

theorem addAll_asRead_of_ok {cs : List Criterion} {d d₁ d' : Draft}
    (hd : d₁.unrecorded = d.unrecorded) (h : d.addAll cs = .ok d') :
    (d₁.addAll (cs.map .asRead)).map unrecorded = .ok d'.unrecorded := by
  induction cs generalizing d d₁ with
  | nil =>
    cases h
    exact congrArg Except.ok hd
  | cons c cs ih =>
    obtain ⟨d₂, hadd, hrest⟩ := bind_eq_ok_iff.1 h
    obtain ⟨leaf, hleaf, -⟩ := bind_eq_ok_iff.1 hadd
    have hstep : (d₁.add c.asRead).map unrecorded = .ok d₂.unrecorded := by
      rw [← add_unrecorded, hd, add_asRead d (leaf?_asRead_of_ok hleaf), hadd]
      rfl
    cases hfirst : d₁.add c.asRead with
    | error fault =>
      rw [hfirst] at hstep
      cases hstep
    | ok d₃ =>
      rw [hfirst] at hstep
      have hstate : d₃.unrecorded = d₂.unrecorded := Except.ok.inj hstep
      have hall := ih hstate hrest
      rw [List.map_cons, addAll, List.foldlM_cons, hfirst]
      exact hall

/-- Where no restriction has a list of two strings, and where a set is taken at all, it is taken as
it is read. -/
theorem apply_seen {set : CriteriaSet} {d : Draft}
    (h : (∀ c ∈ set.restrictions, ∀ v ∈ c.value, v.isPair = false) ∨ ∃ d', d.apply set = .ok d') :
    (d.apply set.asRead).map seen = (d.apply set).map seen := by
  have hjoins : set.asRead.joins.isEmpty = set.joins.isEmpty := List.isEmpty_map
  have horders : set.asRead.orders.isEmpty = set.orders.isEmpty := List.isEmpty_map
  -- Joins are refused before any restriction is looked at, and orders after all of them.
  unfold apply at h ⊢
  rw [hjoins, horders]
  cases hempty : set.joins.isEmpty with
  | false => rfl
  | true =>
    rw [hempty] at h
    have hrestrictions : (d.addAll set.asRead.restrictions).map unrecorded =
        (d.addAll set.restrictions).map unrecorded := by
      rcases h with h | ⟨d', h⟩
      · exact addAll_asRead h d
      · obtain ⟨d₁, hall, -⟩ := bind_eq_ok_iff.1 h
        rw [hall]
        exact addAll_asRead_of_ok rfl hall
    rw [if_pos rfl, if_pos rfl]
    cases hread : d.addAll set.asRead.restrictions with
    | error fault =>
      cases hdirect : d.addAll set.restrictions with
      | error fault' =>
        rw [hread, hdirect] at hrestrictions
        rw [Except.error.inj hrestrictions]
        rfl
      | ok d' =>
        rw [hread, hdirect] at hrestrictions
        cases hrestrictions
    | ok d₁ =>
      cases hdirect : d.addAll set.restrictions with
      | error fault' =>
        rw [hread, hdirect] at hrestrictions
        cases hrestrictions
      | ok d₂ =>
        rw [hread, hdirect] at hrestrictions
        have hstate : d₁.unrecorded = d₂.unrecorded := Except.ok.inj hrestrictions
        cases set.orders.isEmpty with
        | true => exact congrArg (fun d => Except.ok d.seen) hstate
        | false => rfl

end DirectorySearch.Draft

/-! ## Documents -/

/-- Taking the document of a set without floats is taking the set, with the same outcome and, on
success, the same text and the same outcome of compiling: for an entity query in any case, for a
directory search when no restriction has a list of two strings, or when it takes the set. A set that
is nested too deeply has no document. -/
theorem apply_read? {set : CriteriaSet} (h : set.FloatFree) :
    (set.toJson.height ≤ Json.depthLimit → ∃ set', CriteriaSet.read? set.toJson.compact = some set' ∧
      (∀ d : EntityQuery.Draft, (d.apply set').map EntityQuery.Draft.seen =
        (d.apply set).map EntityQuery.Draft.seen) ∧
      ∀ e : DirectorySearch.Draft,
        ((∀ c ∈ set.restrictions, ∀ v ∈ c.value, v.isPair = false) ∨ ∃ e', e.apply set = .ok e') →
          (e.apply set').map DirectorySearch.Draft.seen =
            (e.apply set).map DirectorySearch.Draft.seen) ∧
    (Json.depthLimit < set.toJson.height → CriteriaSet.read? set.toJson.compact = none) := by
  constructor
  · intro hheight
    refine ⟨set.asRead, (CriteriaSet.read?_compact h).2 ⟨hheight, rfl⟩, ?_, ?_⟩
    · exact EntityQuery.Draft.apply_seen set.blanked_asRead
    · exact fun e => DirectorySearch.Draft.apply_seen
  · intro hheight
    rw [Option.eq_none_iff_forall_ne_some]
    intro set' hset'
    have hle := ((CriteriaSet.read?_compact h).1 hset').1
    omega

/-- A list of three strings is bound by an entity query and refused by a directory search, however
it gets there; what is nested one level too deep gets nowhere. -/
theorem apply_read?_lists : ∃ e, DirectorySearch.Draft.create .people = .ok e ∧
    let d := EntityQuery.Draft.start "Person" "person"
    let named (v : Value) : CriteriaSet := { restrictions := [.comparing "name" .equal v] }
    let set := named (.list [.string "Ann", .string "Bob", .string "Cid"])
    let deep := named (Nat.repeat (fun v => .list [v]) 125 (.integer 1))
    ∃ set' d', CriteriaSet.read? set.toJson.compact = some set' ∧ d.apply set = .ok d' ∧
      d'.text = "select person from Person person where person.name = :param1" ∧
      (d.apply set').map EntityQuery.Draft.seen = .ok d'.seen ∧
      (e.apply set').map DirectorySearch.Draft.seen = .error (.collectionValue "name") ∧
      CriteriaSet.read? deep.toJson.compact = none := by
  have he : DirectorySearch.Draft.create .people = .ok _ := rfl
  refine ⟨_, he, ?_⟩
  intro d named set deep
  have hset : set.FloatFree := by decide
  have hdeep : deep.FloatFree := by decide +kernel
  obtain ⟨set', hread, hquery, hsearch⟩ := (apply_read? hset).1 (by decide)
  have hd : d.apply set = .ok _ := rfl
  refine ⟨set', _, hread, hd, by decide, ?_, ?_, (apply_read? hdeep).2 (by decide +kernel)⟩
  · rw [hquery, hd]
    rfl
  · rw [hsearch _ (.inl (by simp [set, named, Criterion.comparing, Criterion.restriction,
      Value.isPair]))]
    rfl

/-- A directory search refuses a list of two strings, and takes its document as a reference to an
entity: the filter asks for the second string. -/
theorem refused_unless_read : ∃ e, DirectorySearch.Draft.create .people = .ok e ∧
    let set : CriteriaSet :=
      { restrictions := [.comparing "name" .equal (.list [.string "Ann", .string "Bob"])] }
    set.FloatFree ∧ e.apply set = .error (.collectionValue "name") ∧
    ∃ set' e', CriteriaSet.read? set.toJson.compact = some set' ∧ e.apply set' = .ok e' ∧
      e'.filterText = "(&(&(objectclass=person)(objectclass=top))(cn=Bob))" := by
  have he : DirectorySearch.Draft.create .people = .ok _ := rfl
  refine ⟨_, he, ?_⟩
  intro set
  have hfloat : set.FloatFree := by decide
  exact ⟨hfloat, rfl, set.asRead, _, (CriteriaSet.read?_compact hfloat).2 ⟨by decide, rfl⟩, rfl,
    by decide⟩

end QueryCriteria
