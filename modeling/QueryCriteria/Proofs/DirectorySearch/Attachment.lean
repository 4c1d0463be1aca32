import Mathlib.Data.List.Chain
import QueryCriteria.Proofs.DirectorySearch.Reference
/-!
# Groups are attached when they are closed

A group is checked against the one around it when it is opened, and becomes a part of it when it is
closed, however much comes in between. The check foretells the attachment
(`attach_of_checkAttachable`), every criterion keeps what it promised (`Stacked.place`), and so a
closing bracket is refused only where no group is open or the innermost one is empty
(`closesGroups_run`).
-/

namespace QueryCriteria.DirectorySearch

/-! ## Stacks of groups -/

/-- A group can be attached to the one around it, whatever it has become until then. -/
def Frame.FitsIn (inner outer : Frame) : Prop :=
  ∀ member, ∃ outer', outer.attach inner.logical member = .ok outer'

/-- What is true of the open groups of a draft. -/
structure Stacked (frames : List Frame) : Prop where
  nonempty : frames ≠ []
  /-- The root is never empty. -/
  root : ∀ root, frames.getLast? = some root → root.filter.isSome = true
  /-- Only the root begins with the object classes. -/
  unseeded : ∀ frame ∈ frames.dropLast, frame.seeded = false
  /-- Each group can be attached to the one around it. -/
  fits : frames.IsChain Frame.FitsIn

variable {frame inner outer : Frame} {frames frames' rest : List Frame} {l : Logical}
  {member : Filter} {c : Criterion}

theorem stacked_singleton : Stacked [frame] ↔ frame.filter.isSome = true :=
  ⟨fun h => h.root frame rfl, fun h => ⟨by simp, by simpa using h, by simp, .singleton frame⟩⟩

theorem stacked_cons_cons : Stacked (inner :: outer :: rest) ↔
    inner.seeded = false ∧ inner.FitsIn outer ∧ Stacked (outer :: rest) := by
  constructor
  · rintro ⟨-, hroot, hunseeded, hfits⟩
    rw [List.getLast?_cons_cons] at hroot
    rw [List.dropLast_cons_cons, List.forall_mem_cons] at hunseeded
    obtain ⟨hfit, hrest⟩ := List.isChain_cons_cons.1 hfits
    exact ⟨hunseeded.1, hfit, by simp, hroot, hunseeded.2, hrest⟩
  · rintro ⟨hseeded, hfit, -, hroot, hunseeded, hrest⟩
    refine ⟨by simp, ?_, ?_, List.isChain_cons_cons.2 ⟨hfit, hrest⟩⟩
    · rwa [List.getLast?_cons_cons]
    · rw [List.dropLast_cons_cons, List.forall_mem_cons]
      exact ⟨hseeded, hunseeded⟩

/-! ## Steps -/

/-- The check of a group that is opened foretells its attachment. -/
theorem attach_of_checkAttachable (h : Draft.checkAttachable (outer :: rest) l = .ok ())
    (member : Filter) : ∃ outer', outer.attach l member = .ok outer' := by
  obtain ⟨logical, filter, seeded⟩ := outer
  cases filter <;> cases seeded <;> cases l <;> first | exact ⟨_, rfl⟩ | cases h

/-- A member changes no more of a group than what it holds. -/
theorem Frame.attach_eq_ok {frame' : Frame} (h : frame.attach l member = .ok frame') :
    frame'.logical = frame.logical ∧ frame'.filter.isSome = true ∧ frame'.seeded = false := by
  obtain ⟨_, -, h⟩ := bind_eq_ok_iff.1 h
  cases h
  exact ⟨rfl, rfl, rfl⟩

theorem Stacked.attach (h : Stacked frames) (hattach : Draft.attach frames l member = .ok frames') :
    Stacked frames' := by
  cases frames with
  | nil => exact absurd rfl h.nonempty
  | cons frame rest =>
    obtain ⟨frame', hframe, heq⟩ := bind_eq_ok_iff.1 hattach
    cases heq
    obtain ⟨hlogical, hfilter, hseeded⟩ := Frame.attach_eq_ok hframe
    cases rest with
    | nil => exact stacked_singleton.2 hfilter
    | cons outer rest =>
      -- What the group around it expects is the logical operator, which stays.
      obtain ⟨-, hfit, hrest⟩ := stacked_cons_cons.1 h
      refine stacked_cons_cons.2 ⟨hseeded, ?_, hrest⟩
      rwa [Frame.FitsIn, hlogical]

/-- Closing takes away the innermost group and attaches it. -/
theorem Stacked.close (h : Stacked frames) (hclose : Draft.close frames = .ok frames') :
    Stacked frames' := by
  match frames with
  | [] => cases hclose
  | [_] => cases hclose
  | ⟨_, none, _⟩ :: _ :: _ => cases hclose
  | ⟨_, some _, _⟩ :: outer :: rest => exact (stacked_cons_cons.1 h).2.2.attach hclose

theorem Stacked.place {leaf : Option Filter} (h : Stacked frames)
    (hplace : Draft.place frames c leaf = .ok frames') : Stacked frames' := by
  unfold Draft.place at hplace
  split at hplace
  · obtain ⟨_, hcheck, heq⟩ := bind_eq_ok_iff.1 hplace
    cases heq
    cases frames with
    | nil => exact absurd rfl h.nonempty
    | cons outer rest =>
      exact stacked_cons_cons.2 ⟨rfl, attach_of_checkAttachable hcheck, h⟩
  · exact h.close hplace
  · obtain ⟨frames₁, hattach, hclose⟩ := bind_eq_ok_iff.1 hplace
    exact (h.attach hattach).close hclose
  · exact h.attach hplace
  · cases hplace

/-- A group is closed exactly when it is open and holds something. -/
theorem Stacked.close_eq_ok_iff (h : Stacked frames) : (∃ frames', Draft.close frames = .ok frames') ↔
    1 < frames.length ∧ ∃ innermost, frames.head? = some innermost ∧
      innermost.filter.isSome = true := by
  match frames with
  | [] => simp [Draft.close]
  | [_] => simp [Draft.close]
  | ⟨_, none, _⟩ :: _ :: _ => simp [Draft.close]
  | ⟨l, some filter, seeded⟩ :: outer :: rest =>
    obtain ⟨outer', houter⟩ := (stacked_cons_cons.1 h).2.1 filter
    have hclose : Draft.close (⟨l, some filter, seeded⟩ :: outer :: rest) = .ok (outer' :: rest) := by
      show (do return (← outer.attach l filter) :: rest) = _
      rw [houter]
      rfl
    simp [hclose]

/-! ## The root group -/

theorem attach_ne_noRootGroup (h : frames ≠ []) :
    Draft.attach frames l member ≠ .error .noRootGroup := by
  cases frames with
  | nil => exact absurd rfl h
  | cons frame rest =>
    refine bind_ne_error (bind_ne_error ?_ nofun) nofun
    unfold Frame.connective?
    split <;> simp

/-- Nothing is closed but a group inside another. -/
theorem close_ne_noRootGroup : Draft.close frames ≠ .error .noRootGroup := by
  match frames with
  | [] | [_] | ⟨_, none, _⟩ :: _ :: _ => exact nofun
  | ⟨_, some _, _⟩ :: outer :: rest => exact attach_ne_noRootGroup (List.cons_ne_nil outer rest)

theorem place_ne_noRootGroup {leaf : Option Filter} (h : frames ≠ []) :
    Draft.place frames c leaf ≠ .error .noRootGroup := by
  unfold Draft.place
  split
  · refine bind_ne_error ?_ nofun
    cases frames with
    | nil => exact nofun
    | cons frame rest =>
      unfold Draft.checkAttachable
      dsimp only
      split
      · exact nofun
      · split <;> exact nofun
  · exact close_ne_noRootGroup
  · exact bind_ne_error (attach_ne_noRootGroup h) fun _ _ => close_ne_noRootGroup
  · exact attach_ne_noRootGroup h
  · exact nofun

namespace Draft

variable {mapping : Mapping} {d d' : Draft}

theorem leaf_ne_noRootGroup : d.leaf c ≠ .error .noRootGroup := by
  unfold leaf
  refine bind_ne_error ?_ fun _ _ => bind_ne_error ?_ fun operand _ => ?_
  · unfold assertion
    split <;> exact nofun
  · unfold Criterion.requireOperand
    split
    · split <;> exact nofun
    · exact nofun
  · split
    · exact nofun
    · refine bind_ne_error ?_ fun _ _ => ?_
      · unfold Criterion.requireValue
        split <;> exact nofun
      · split <;> exact nofun

theorem leaf?_ne_noRootGroup : d.leaf? c ≠ .error .noRootGroup := by
  unfold leaf?
  refine bind_ne_error ?_ fun role _ => ?_
  · unfold Criterion.role
    split
    case h_4 => split <;> exact nofun
    all_goals exact nofun
  · cases role with
    | restriction =>
      have hleaf : d.leaf c ≠ .error .noRootGroup := leaf_ne_noRootGroup
      cases h : d.leaf c with
      | ok f => exact nofun
      | error fault =>
        rintro ⟨⟩
        exact hleaf h
    | enclosure | join | order => exact nofun

/-! ## Runs -/

theorem stacked_create (h : create mapping = .ok d) : Stacked d.frames := by
  rw [(create_eq_ok h).2.2.1]
  exact stacked_singleton.2 rfl

theorem stacked_add (h : Stacked d.frames) (hadd : d.add c = .ok d') : Stacked d'.frames := by
  obtain ⟨_, _, -, hplace, rfl⟩ := add_eq_ok_iff.1 hadd
  exact h.place hplace

theorem add_ne_noRootGroup (h : Stacked d.frames) : d.add c ≠ .error .noRootGroup :=
  bind_ne_error leaf?_ne_noRootGroup fun _ _ => bind_ne_error (place_ne_noRootGroup h.nonempty) nofun

theorem addAll_ne_noRootGroup (h : Stacked d.frames) (cs : List Criterion) :
    d.addAll cs ≠ .error .noRootGroup :=
  foldlM_ne_error (P := fun d => Stacked d.frames) (fun _ _ _ => stacked_add)
    (fun _ _ => add_ne_noRootGroup) h

theorem perform_ne_noRootGroup (h : Stacked d.frames) (call : Call) :
    d.perform call ≠ .error .noRootGroup := by
  cases call with
  | add c => exact add_ne_noRootGroup h
  | addAll cs => exact addAll_ne_noRootGroup h cs
  | addOrder c | addOrders cs => exact nofun
  | apply set =>
    show d.apply set ≠ _
    unfold apply
    split
    · refine bind_ne_error (addAll_ne_noRootGroup h set.restrictions) fun _ _ => ?_
      split <;> exact nofun
    · exact nofun

/-- A bare bracket that closes does nothing else. -/
theorem add_closing_iff (hrole : c.role = .ok .enclosure) (hc : c.enclosure = .closing) :
    (∃ d', d.add c = .ok d') ↔ ∃ frames, close d.frames = .ok frames := by
  have hleaf : d.leaf? c = .ok none := by rw [leaf?, hrole]; rfl
  have hplace : place d.frames c none = close d.frames := by unfold place; rw [hc]
  simp only [add_eq_ok_iff, hleaf, Except.ok.injEq]
  constructor
  · rintro ⟨_, _, frames, rfl, hframes, -⟩
    exact ⟨frames, hplace ▸ hframes⟩
  · rintro ⟨frames, hframes⟩
    exact ⟨_, none, frames, rfl, hplace.trans hframes, rfl⟩

/-- How a draft closes its groups. -/
structure ClosesGroups (d : Draft) : Prop where
  stacked : Stacked d.frames
  /-- No call misses the root. -/
  rooted : ∀ call, d.perform call ≠ .error .noRootGroup
  /-- A bare bracket closes the innermost group when one is open and holds something. -/
  closes : ∀ c : Criterion, c.role = .ok .enclosure → c.enclosure = .closing →
    ((∃ d', d.add c = .ok d') ↔ 1 < d.frames.length ∧
      ∃ innermost, d.frames.head? = some innermost ∧ innermost.filter.isSome = true)

/-- After every run of calls on a new draft, whichever of them fail, each open group can be attached
to the one around it, so that a closing bracket is refused for no other reason than that no group is
open or the innermost one is empty. -/
theorem closesGroups_run (h : create mapping = .ok d) (calls : List Call) :
    ClosesGroups (d.run calls) := by
  have hstacked : Stacked (d.run calls).frames :=
    run_invariant (P := fun d => Stacked d.frames) (fun _ _ _ => stacked_add) (stacked_create h) calls
  refine ⟨hstacked, perform_ne_noRootGroup hstacked, fun c hrole hc => ?_⟩
  rw [add_closing_iff hrole hc, hstacked.close_eq_ok_iff]

/-- A group inside one that is still empty: its closing bracket is taken, and the next one only when
there is no empty group in front of it. -/
theorem closesGroups_run_nested : ∃ d, create .people = .ok d ∧
    let name := Criterion.comparing "name" .equal (.string "Ann")
    let mail := (Criterion.comparing "mail" .equal (.string "ann@example")).withEnclosure .opening
    let calls : List Call :=
      [.add name, .add ((Criterion.marker .opening).withLogical .or), .add mail]
    let further := calls ++ [.add ((Criterion.marker .opening).withLogical .and)]
    (d.run calls).frames.map (·.logical) = [.undefined, .or, .undefined] ∧
      ClosesGroups (d.run calls) ∧ (∃ d', (d.run calls).add (.marker .closing) = .ok d') ∧
      ClosesGroups (d.run further) ∧ ¬ ∃ d', (d.run further).add (.marker .closing) = .ok d' := by
  have h : create .people = .ok _ := rfl
  refine ⟨_, h, ?_⟩
  intro name mail calls further
  have hcalls := closesGroups_run h calls
  have hfurther := closesGroups_run h further
  refine ⟨by decide, hcalls, (hcalls.closes _ rfl rfl).2 ⟨by decide, _, rfl, rfl⟩, hfurther, ?_⟩
  rw [hfurther.closes _ rfl rfl]
  rintro ⟨-, innermost, hhead, hfilter⟩
  obtain rfl := Option.some.inj hhead
  cases hfilter

end Draft

end QueryCriteria.DirectorySearch
