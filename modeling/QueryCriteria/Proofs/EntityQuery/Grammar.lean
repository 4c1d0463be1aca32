import QueryCriteria.Proofs.EntityQuery.Draft
/-!
# The grammar of where clauses

After every run of calls, what a draft has written is a beginning of a sentence, and a whole
sentence once it compiles. The sentences are those of expressions: terms with "and" or "or" between
them, a term being a predicate or a sentence in brackets.
-/

namespace QueryCriteria.EntityQuery

/-- The fragments of an expression. -/
def IsSentence (fs : List Fragment) : Prop :=
  ∃ e : Expression Predicate, e.fragments id = fs

/-- A beginning of a sentence that stops right behind a bracket or a predicate. -/
def BeginsSentence (fs : List Fragment) : Prop :=
  (∃ sentence, IsSentence sentence ∧ fs <+: sentence) ∧
    ∃ f, fs.getLast? = some f ∧ (f = .opening ∨ f = .closing ∨ ∃ p, f = .predicate p)

instance : Inhabited Predicate := ⟨⟨"", .equal, none⟩⟩

namespace Draft

/-- The draft has written the outline of some expression, if it has taken any criterion. -/
structure Grammatical (d : Draft) : Prop where
  outline : ∃ o : Outline Predicate, Writes id o d
  started : d.restrictions = [] ↔ d.restrictionCriteria = []

/-- What has been written of an outline begins a sentence. -/
theorem beginsSentence_fragments (o : Outline Predicate) :
    o.fragments id = [] ∨ ∃ fs, o.fragments id = .whereWord :: fs ∧ BeginsSentence fs := by
  obtain ⟨e, he⟩ := o.body_prefix id
  obtain ⟨outer, current⟩ := o
  cases current with
  | some e' =>
    obtain ⟨f, hf, hends⟩ := e'.getLast?_fragments id
    refine .inr ⟨_, by simp [Outline.fragments], ⟨_, ⟨e, rfl⟩, he⟩, f, ?_, .inr hends⟩
    simp [Outline.body, List.getLast?_append, hf]
  | none =>
    cases outer with
    | nil => exact .inl rfl
    | cons s outer =>
      refine .inr ⟨_, by simp [Outline.fragments], ⟨_, ⟨e, rfl⟩, he⟩, .opening, ?_, .inl rfl⟩
      simp [Outline.body, Outline.groupFragments]

/-- Without open groups, what has been written is a sentence. -/
theorem isSentence_fragments {o : Outline Predicate} (h : o.depth = 0) :
    o.fragments id = [] ∨ ∃ fs, o.fragments id = .whereWord :: fs ∧ IsSentence fs := by
  obtain ⟨outer, current⟩ := o
  obtain rfl : outer = [] := List.length_eq_zero_iff.1 h
  cases current with
  | none => exact .inl rfl
  | some e =>
    refine .inr ⟨e.fragments id, ?_, e, rfl⟩
    simp [Outline.fragments, Outline.body, Outline.groupFragments]

theorem grammatical_create {entity : String} {schema : Schema} {settings : Settings} {d : Draft}
    (h : create entity schema settings = .ok d) : Grammatical d := by
  obtain ⟨name, rootAlias, hs⟩ := sameWhere_create h
  refine ⟨⟨.empty, hs.restrictions, hs.openGroups⟩, ?_⟩
  rw [hs.restrictions, hs.restrictionCriteria]
  simp [start]

theorem grammatical_run {d : Draft} (h : Grammatical d) (calls : List Call) :
    Grammatical (d.run calls) := by
  refine run_invariant (fun d c d' hd hadd => ?_) (fun d d' hd hs => ?_) h calls
  · obtain ⟨o, ho⟩ := hd.outline
    obtain ⟨-, o', -, ho'⟩ := writes_add ho hadd
    obtain ⟨⟨more, hne, hr⟩, hc⟩ := restrictions_add hadd
    exact ⟨⟨o', ho'⟩, by simp [hr, hc, hne]⟩
  · obtain ⟨o, ho⟩ := hd.outline
    refine ⟨⟨o, hs.restrictions.trans ho.restrictions, hs.openGroups.trans ho.openGroups⟩, ?_⟩
    rw [hs.restrictions, hs.restrictionCriteria]
    exact hd.started

theorem compile_error_iff (d : Draft) : (∃ fault, d.compile = .error fault) ↔ 0 < d.openGroups := by
  unfold compile
  split
  · next h => exact ⟨fun _ => h, fun _ => ⟨_, rfl⟩⟩
  · next h => exact ⟨nofun, fun h' => absurd h' h⟩

/-- The where clause of a draft follows the grammar. -/
structure WellWritten (d : Draft) : Prop where
  /-- Nothing has been written, or "where" and a beginning of a sentence. -/
  begins : d.restrictions = [] ∨ ∃ fs, d.restrictions = .whereWord :: fs ∧ BeginsSentence fs
  /-- The open groups are the brackets that have been opened, less those closed. -/
  openGroups : d.restrictions.count .opening = d.openGroups + d.restrictions.count .closing
  /-- No bracket is closed before it is opened. -/
  guarded : ∀ n, (d.restrictions.take n).count .closing ≤ (d.restrictions.take n).count .opening
  /-- Only an open group keeps the draft from compiling. -/
  compiles : (∃ fault, d.compile = .error fault) ↔ 0 < d.openGroups
  /-- What compiles is a whole sentence, or nothing. -/
  complete : ∀ query, d.compile = .ok query →
    d.restrictions = [] ∨ ∃ fs, d.restrictions = .whereWord :: fs ∧ IsSentence fs
  /-- Something is written exactly when a restriction or bracket has been accepted. -/
  started : d.restrictions ≠ [] ↔ d.hasRestrictions = true

/-- The where clause follows the grammar after every run of calls on a new draft, whichever of them
fail. -/
theorem wellWritten_run {entity : String} {schema : Schema} {settings : Settings} {d₀ : Draft}
    (h : create entity schema settings = .ok d₀) (calls : List Call) :
    WellWritten (d₀.run calls) := by
  obtain ⟨⟨o, ho⟩, hstarted⟩ := grammatical_run (grammatical_create h) calls
  refine ⟨?_, ?_, ?_, compile_error_iff _, fun query hq => ?_, ?_⟩
  · rw [ho.restrictions]
    exact beginsSentence_fragments o
  · rw [ho.restrictions, ho.openGroups]
    exact o.count_fragments id
  · rw [ho.restrictions]
    exact o.guarded_fragments id
  · rw [ho.restrictions]
    refine isSentence_fragments (Nat.eq_zero_of_not_pos fun hpos => ?_)
    obtain ⟨fault, hf⟩ := (compile_error_iff _).2 (ho.openGroups ▸ hpos)
    rw [hf] at hq
    cases hq
  · rw [Ne, hstarted]
    simp [hasRestrictions]

/-- A run with a refused call in a group that stays open: the closing bracket right behind the
opening one is refused and leaves no trace. -/
theorem wellWritten_run_openGroup :
    create "Address" (Schema.ofList [⟨"Address", []⟩]) ⟨.disabled, 3⟩ =
      .ok (start "Address" "address") ∧
    ((start "Address" "address").run [.add (.testing "city" .isNull),
      .add ((Criterion.marker .opening).withLogical .or), .add (.marker .closing),
      .add (.testing "state" .isNotNull)]).restrictions =
      [.whereWord, .predicate ⟨"address.city", .isNull, none⟩, .orWord, .opening,
        .predicate ⟨"address.state", .isNotNull, none⟩] ∧
    WellWritten ((start "Address" "address").run [.add (.testing "city" .isNull),
      .add ((Criterion.marker .opening).withLogical .or), .add (.marker .closing),
      .add (.testing "state" .isNotNull)]) := by
  have h : create "Address" (Schema.ofList [⟨"Address", []⟩]) ⟨.disabled, 3⟩ =
      .ok (start "Address" "address") := rfl
  exact ⟨h, by decide, wellWritten_run h _⟩

end Draft

end QueryCriteria.EntityQuery
