import QueryCriteria.Proofs.Blanking
import QueryCriteria.Proofs.DirectorySearch.Draft
/-!
# Values in drafts of directory searches

Where no value is a list, a draft looks at values only to write them into its leaves. Blanking them
carries every call along (`perform_blanked`) and leaves the shape of the filter.
-/

namespace QueryCriteria.DirectorySearch

/-- The call with the values of its criteria blanked. -/
def Call.blanked : Call → Call
  | .add c => .add c.blanked
  | .addAll cs => .addAll (cs.map .blanked)
  | .addOrder c => .addOrder c.blanked
  | .addOrders cs => .addOrders (cs.map .blanked)
  | .apply set => .apply set.blanked

/-- The filter with all literals blanked. Its shape, connectives, attributes and assertions stay. -/
def Filter.blanked : Filter → Filter
  | .objectClasses classes => .objectClasses classes
  | .compare attributeName assertion _ => .compare attributeName assertion ""
  | .group connective left right => .group connective left.blanked right.blanked

/-! ## Frames -/

namespace Frame

/-- The group with all literals blanked. -/
def blanked (frame : Frame) : Frame := { frame with filter := frame.filter.map .blanked }

theorem connective?_blanked (frame : Frame) (logical : Logical) :
    frame.blanked.connective? logical = frame.connective? logical := by
  unfold connective? blanked
  cases frame.filter <;> cases frame.seeded <;> cases logical <;> rfl

theorem attach_blanked (frame : Frame) (logical : Logical) (member : Filter) :
    frame.blanked.attach logical member.blanked = (frame.attach logical member).map blanked := by
  unfold attach
  rw [connective?_blanked]
  cases frame.connective? logical with
  | error fault => rfl
  | ok connective =>
    simp only [ok_bind, blanked]
    cases frame.filter <;> cases connective <;> rfl

end Frame

namespace Draft

/-- The draft with all values blanked, those in its leaves and those of the criteria it records. -/
def blanked (d : Draft) : Draft :=
  { d with
    frames := d.frames.map .blanked
    restrictionCriteria := d.restrictionCriteria.map .blanked }

theorem checkAttachable_blanked (frames : List Frame) (logical : Logical) :
    checkAttachable (frames.map .blanked) logical = checkAttachable frames logical := by
  cases frames with
  | nil => rfl
  | cons frame outer => simp [checkAttachable, Frame.blanked]

theorem attach_blanked (frames : List Frame) (logical : Logical) (member : Filter) :
    attach (frames.map .blanked) logical member.blanked =
      (attach frames logical member).map (List.map .blanked) := by
  cases frames with
  | nil => rfl
  | cons frame outer =>
    rw [List.map_cons, attach, attach, Frame.attach_blanked]
    cases frame.attach logical member <;> rfl

theorem close_blanked (frames : List Frame) :
    close (frames.map .blanked) = (close frames).map (List.map .blanked) := by
  cases frames with
  | nil => rfl
  | cons frame outer =>
    have hempty : (outer.map Frame.blanked).isEmpty = outer.isEmpty := List.isEmpty_map
    rw [List.map_cons, close, close, hempty]
    cases outer.isEmpty with
    | true => rfl
    | false =>
      cases hfilter : frame.filter with
      | none => simp [Frame.blanked, hfilter, Except.map]
      | some filter =>
        simpa [Frame.blanked, hfilter] using attach_blanked outer frame.logical filter

theorem place_blanked (frames : List Frame) (c : Criterion) (leaf : Option Filter) :
    place (frames.map .blanked) c.blanked (leaf.map .blanked) =
      (place frames c leaf).map (List.map .blanked) := by
  have henclosure : c.blanked.enclosure = c.enclosure := rfl
  have hlogical : c.blanked.logical = c.logical := rfl
  unfold place
  rw [henclosure, hlogical, checkAttachable_blanked]
  cases c.enclosure with
  | opening => cases checkAttachable frames c.logical <;> rfl
  | closing =>
    cases leaf with
    | none => exact close_blanked frames
    | some leaf =>
      simp only [Option.map_some, attach_blanked]
      cases attach frames c.logical leaf with
      | error fault => rfl
      | ok frames => exact close_blanked frames
  | undefined =>
    cases leaf with
    | none => rfl
    | some leaf => exact attach_blanked frames c.logical leaf

/-! ## One criterion -/

theorem leaf_blanked (d : Draft) {c : Criterion} (h : c.Scalar) :
    d.blanked.leaf c.blanked = (d.leaf c).map .blanked := by
  have hcomparison : c.blanked.comparison = c.comparison := rfl
  have hattributes : d.blanked.attributes = d.attributes := rfl
  unfold leaf
  rw [hcomparison, hattributes, Criterion.requireOperand_blanked]
  cases assertion c.comparison with
  | error fault => rfl
  | ok assertion =>
    cases c.requireOperand "restriction" with
    | error fault => rfl
    | ok operand =>
      simp only [ok_bind, Criterion.requireValue_blanked]
      cases d.attributes.get? operand with
      | none => rfl
      | some attributeName =>
        unfold Criterion.requireValue
        cases hvalue : c.value with
        | none => rfl
        | some value =>
          -- Only a list would have no literal, whether blanked or not.
          have hliteral : value.literal?.isSome = true := by
            rw [Value.literal?_isSome, h value hvalue, Bool.not_false]
          obtain ⟨literal, hliteral⟩ := Option.isSome_iff_exists.1 hliteral
          have hblank : Value.blank.literal? = some "" := rfl
          simp only [Except.map, ok_bind, hliteral, hblank, Filter.blanked]

theorem leaf?_blanked (d : Draft) {c : Criterion} (h : c.Scalar) :
    d.blanked.leaf? c.blanked = (d.leaf? c).map (Option.map .blanked) := by
  unfold leaf?
  rw [Criterion.role_blanked, leaf_blanked d h]
  cases c.role with
  | error fault => rfl
  | ok role =>
    cases role with
    | restriction => cases d.leaf c <;> rfl
    | enclosure | join | order => rfl

theorem add_blanked (d : Draft) {c : Criterion} (h : c.Scalar) :
    d.blanked.add c.blanked = (d.add c).map blanked := by
  unfold add
  rw [leaf?_blanked d h]
  cases d.leaf? c with
  | error fault => rfl
  | ok leaf =>
    have hplace : place d.blanked.frames c.blanked (leaf.map .blanked) =
        (place d.frames c leaf).map (List.map .blanked) := place_blanked d.frames c leaf
    have hrecord : (d.restrictionCriteria ++ [c]).map .blanked =
        d.blanked.restrictionCriteria ++ [c.blanked] := List.map_append
    simp only [Except.map, ok_bind, hplace, ← hrecord]
    cases place d.frames c leaf <;> rfl

/-! ## Calls -/

/-- Where the restrictions of a call have no lists, what becomes of it does not depend on their
values, and the literals it puts into the filter are theirs. -/
theorem perform_blanked (d : Draft) {call : Call} (h : ∀ c ∈ call.restrictions, c.Scalar) :
    d.blanked.perform call.blanked = (d.perform call).map blanked := by
  have hall (cs : List Criterion) (hcs : ∀ c ∈ cs, c.Scalar) :
      d.blanked.addAll (cs.map .blanked) = (d.addAll cs).map blanked :=
    foldlM_map (fun d c hc => add_blanked d (hcs c hc)) d
  cases call with
  | add c => exact add_blanked d (h c (.head _))
  | addAll cs => exact hall cs h
  | addOrder c => rfl
  | addOrders cs => rfl
  | apply set =>
    have hjoins : set.blanked.joins.isEmpty = set.joins.isEmpty := List.isEmpty_map
    have horders : set.blanked.orders.isEmpty = set.orders.isEmpty := List.isEmpty_map
    have hrestrictions := hall set.restrictions h
    simp only [perform, Call.blanked, apply, hjoins, horders]
    cases set.joins.isEmpty with
    | false => rfl
    | true =>
      simp only [if_true, CriteriaSet.blanked, hrestrictions]
      cases d.addAll set.restrictions with
      | error fault => rfl
      | ok d => cases set.orders.isEmpty <;> rfl

theorem filter?_blanked (d : Draft) : d.blanked.filter? = d.filter?.map .blanked := by
  simp only [filter?, blanked, List.getLast?_map]
  cases d.frames.getLast? <;> rfl

/-- Calls without lists that differ in values only have the same outcomes, and the drafts they leave
differ in values only. -/
theorem outcomes_of_blanked {d : Draft} {calls calls' : List Call}
    (hscalar : ∀ call ∈ calls, ∀ c ∈ call.restrictions, c.Scalar)
    (hscalar' : ∀ call ∈ calls', ∀ c ∈ call.restrictions, c.Scalar)
    (h : calls.map Call.blanked = calls'.map Call.blanked) :
    outcomes perform d calls = outcomes perform d calls' ∧
      (d.run calls).blanked = (d.run calls').blanked :=
  outcomes_of_map_eq (fun d call hcall => perform_blanked d (hscalar call hcall))
    (fun d call hcall => perform_blanked d (hscalar' call hcall)) h d

end Draft

end QueryCriteria.DirectorySearch
