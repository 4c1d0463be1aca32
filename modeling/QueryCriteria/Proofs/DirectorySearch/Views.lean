import QueryCriteria.Proofs.DirectorySearch.Draft
/-!
# Views of drafts of directory searches

What a draft looks at when it takes a criterion: its attributes, and of each frame the logical
operator, whether it has a filter, and whether that is the seed. Runs from drafts that look alike
have the same outcomes (`run_of_view`).
-/

namespace QueryCriteria.DirectorySearch

/-- What is looked at in a frame. -/
def Frame.look (frame : Frame) : Logical × Bool × Bool :=
  (frame.logical, frame.filter.isSome, frame.seeded)

/-- Whatever the members are, frames that look alike take them alike. -/
theorem Frame.attach_of_look {frame frame' : Frame} (h : frame.look = frame'.look) (l : Logical)
    (member member' : Filter) :
    (frame.attach l member).map look = (frame'.attach l member').map look := by
  obtain ⟨logical, f?, seeded⟩ := frame
  obtain ⟨logical', f?', seeded'⟩ := frame'
  simp only [look, Prod.mk.injEq] at h
  obtain ⟨rfl, hf, rfl⟩ := h
  cases f? with
  | none =>
    cases f?' with
    | none => cases seeded <;> cases l <;> rfl
    | some f' => cases hf
  | some f =>
    cases f?' with
    | none => cases hf
    | some f' => cases seeded <;> cases l <;> rfl

namespace Draft

variable {frames frames' : List Frame} {d d' : Draft}

theorem attach_of_look (h : frames.map Frame.look = frames'.map Frame.look) (l : Logical)
    (member member' : Filter) : (attach frames l member).map (List.map Frame.look) =
      (attach frames' l member').map (List.map Frame.look) := by
  cases frames with
  | nil =>
    obtain rfl := List.map_eq_nil_iff.1 h.symm
    rfl
  | cons frame outer =>
    obtain ⟨frame', outer', rfl, hframe, houter⟩ := List.map_eq_cons_iff.1 h.symm
    refine map_bind_of_seen (Frame.attach_of_look hframe.symm l member member') fun _ _ h => ?_
    exact congrArg Except.ok (by rw [List.map_cons, List.map_cons, h, houter])

theorem checkAttachable_of_look (h : frames.map Frame.look = frames'.map Frame.look)
    (l : Logical) : checkAttachable frames l = checkAttachable frames' l := by
  cases frames with
  | nil =>
    obtain rfl := List.map_eq_nil_iff.1 h.symm
    rfl
  | cons frame outer =>
    obtain ⟨frame', outer', rfl, hframe, -⟩ := List.map_eq_cons_iff.1 h.symm
    simp only [Frame.look, Prod.mk.injEq] at hframe
    obtain ⟨-, hfilter, hseeded⟩ := hframe
    have hnone : frame'.filter.isNone = frame.filter.isNone := by
      rw [← Option.not_isSome, ← Option.not_isSome, hfilter]
    rw [checkAttachable, checkAttachable, hfilter, hseeded, hnone]

theorem close_of_look (h : frames.map Frame.look = frames'.map Frame.look) :
    (close frames).map (List.map Frame.look) = (close frames').map (List.map Frame.look) := by
  cases frames with
  | nil =>
    obtain rfl := List.map_eq_nil_iff.1 h.symm
    rfl
  | cons frame outer =>
    obtain ⟨frame', outer', rfl, hframe, houter⟩ := List.map_eq_cons_iff.1 h.symm
    simp only [Frame.look, Prod.mk.injEq] at hframe
    obtain ⟨hlogical, hfilter, -⟩ := hframe
    have hempty : outer'.isEmpty = outer.isEmpty := by
      rw [← List.isEmpty_map, houter, List.isEmpty_map]
    unfold close
    dsimp only
    rw [hempty, hlogical]
    split
    · rfl
    · cases hf : frame.filter with
      | none =>
        cases hf' : frame'.filter with
        | none => rfl
        | some f' => rw [hf, hf'] at hfilter; cases hfilter
      | some f =>
        cases hf' : frame'.filter with
        | none => rw [hf, hf'] at hfilter; cases hfilter
        | some f' => exact attach_of_look houter.symm frame.logical f f'

theorem place_of_look (h : frames.map Frame.look = frames'.map Frame.look) (c : Criterion)
    (leaf : Option Filter) : (place frames c leaf).map (List.map Frame.look) =
      (place frames' c leaf).map (List.map Frame.look) := by
  unfold place
  cases c.enclosure with
  | opening =>
    rw [checkAttachable_of_look h]
    refine map_bind_of_seen (g := id) rfl fun _ _ _ => congrArg Except.ok ?_
    exact congrArg (_ :: ·) h
  | closing =>
    cases leaf with
    | none => exact close_of_look h
    | some leaf =>
      exact map_bind_of_seen (attach_of_look h c.logical leaf leaf) fun _ _ => close_of_look
  | undefined =>
    cases leaf with
    | none => rfl
    | some leaf => exact attach_of_look h c.logical leaf leaf

/-! ## Calls -/

/-- What is looked at in a draft. -/
def view (d : Draft) : OrderedMap String × List (Logical × Bool × Bool) :=
  (d.attributes, d.frames.map Frame.look)

/-- What a criterion brings depends on the attributes alone. -/
theorem leaf?_of_attributes (h : d.attributes = d'.attributes) (c : Criterion) :
    d.leaf? c = d'.leaf? c := by
  unfold leaf? leaf
  rw [h]

theorem add_of_view (h : view d = view d') (c : Criterion) :
    (d.add c).map view = (d'.add c).map view := by
  obtain ⟨hattributes, hframes⟩ := Prod.mk.inj h
  unfold add
  rw [leaf?_of_attributes hattributes]
  refine map_bind_of_seen (g := id) rfl fun leaf leaf' heq => ?_
  obtain rfl : leaf = leaf' := heq
  refine map_bind_of_seen (place_of_look hframes c leaf) fun frames frames' h => ?_
  exact congrArg Except.ok (Prod.ext hattributes h)

theorem perform_of_view (h : view d = view d') (call : Call) :
    (d.perform call).map view = (d'.perform call).map view := by
  have hall {d d' : Draft} (h : view d = view d') (cs : List Criterion) :
      (d.addAll cs).map view = (d'.addAll cs).map view :=
    foldlM_of_seen (fun _ _ c _ h => add_of_view h c) h
  cases call with
  | add c => exact add_of_view h c
  | addAll cs => exact hall h cs
  | addOrder c => rfl
  | addOrders cs => rfl
  | apply set =>
    unfold perform apply
    dsimp only
    split
    · refine map_bind_of_seen (hall h set.restrictions) fun _ _ h => ?_
      split
      · exact congrArg Except.ok h
      · rfl
    · rfl

/-- Runs from drafts that look alike have the same outcomes, and what they leave looks alike. -/
theorem run_of_view (h : view d = view d') (calls : List Call) :
    outcomes Draft.perform d calls = outcomes Draft.perform d' calls ∧
      view (d.run calls) = view (d'.run calls) :=
  outcomes_of_seen (fun _ _ call _ h => perform_of_view h call) h

theorem compile_of_view (h : view d = view d') :
    (∃ search, d.compile = .ok search) ↔ ∃ search, d'.compile = .ok search := by
  have hlength : d.frames.length = d'.frames.length := by
    have hmap := congrArg List.length (congrArg Prod.snd h)
    rwa [view, view, List.length_map, List.length_map] at hmap
  unfold compile
  rw [hlength]
  split <;> simp

end Draft

end QueryCriteria.DirectorySearch
