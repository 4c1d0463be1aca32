import Mathlib.Data.List.Induction
import QueryCriteria.Proofs.Outline
import QueryCriteria.Proofs.Precedence
import QueryCriteria.Proofs.Valuation
/-!
# Truth token by token

The truth values of the open levels of an expression while it is read (`Levels`). They follow the
outline of what is read (`Outline.levels_read?`), but every sequence of tokens has them. The
comparisons can have values under which all levels are still undecided (`exists_open`), and where
two readings differ in one level, those behind can have values that carry the difference to the end
(`Apart.exists_read`).
-/

open QueryCriteria.DirectorySearch (Connective)

namespace QueryCriteria

variable {α : Type}

/-! ## Levels -/

/-- What has been read of each level. One that is around an open group waits for it behind its last
connective; the innermost may still be empty. -/
structure Levels where
  outer : List Level
  current : Option Level

namespace Levels

def empty : Levels := ⟨[], none⟩

/-- The innermost level in front of its next term. -/
def lead (s : Levels) (logical : Logical) : Level :=
  match s.current, logical with
  | none, _ => .start
  | some level, .and => level
  | some level, _ => level.next

/-- The levels after another token. -/
def next (s : Levels) : Token Bool → Levels
  | .opening logical => ⟨s.lead logical :: s.outer, none⟩
  | .comparison logical value => ⟨s.outer, some ((s.lead logical).meet value)⟩
  | .closing =>
    match s.current with
    | none => s
    | some level => ⟨s.outer.tail, some ((s.outer.headD .start).meet level.value)⟩

/-- The levels after more tokens. -/
def read (s : Levels) (ts : List (Token Bool)) : Levels := ts.foldl next s

/-- The value of the innermost level. -/
def value (s : Levels) : Bool := s.current.elim true Level.value

theorem read_append (s : Levels) (ts us : List (Token Bool)) :
    s.read (ts ++ us) = (s.read ts).read us :=
  List.foldl_append

end Levels

/-! ## Levels of outlines -/

/-- The level around a place, in front of the term that goes there. -/
def Slot.level : Slot Bool → Level
  | .first => .start
  | .after e .and => e.level id
  | .after e .or => (e.level id).next

theorem Slot.level_fill (s : Slot Bool) (t : Term Bool) :
    (s.fill t).level id = s.level.meet (t.holds id) := by
  cases s with
  | first => rfl
  | after e c => cases c <;> rfl

namespace Outline

/-- The levels of an outline. -/
def levels (o : Outline Bool) : Levels :=
  ⟨o.outer.map Slot.level, o.current.map (·.level id)⟩

theorem level_slot? {o : Outline Bool} {l : Logical} {s : Slot Bool} (h : o.slot? l = some s) :
    s.level = o.levels.lead l := by
  obtain ⟨outer, current⟩ := o
  cases current with
  | none =>
    obtain rfl : s = .first := by
      cases l <;> simp [slot?] at h <;> simp [h]
    rfl
  | some e =>
    cases l with
    | and => cases h; rfl
    | or => cases h; rfl
    | undefined => cases h

/-- The levels go along with the outline. -/
theorem levels_next? {o o' : Outline Bool} {t : Token Bool} (h : o.next? t = some o') :
    o'.levels = o.levels.next t := by
  cases t with
  | opening l =>
    obtain ⟨s, hs, rfl⟩ := Option.map_eq_some_iff.1 h
    exact congrArg (fun level => Levels.mk (level :: _) none) (level_slot? hs)
  | comparison l value =>
    obtain ⟨s, hs, rfl⟩ := Option.map_eq_some_iff.1 h
    have hlevel : (s.fill (.leaf value)).level id = (o.levels.lead l).meet value := by
      rw [s.level_fill, level_slot? hs]
      rfl
    exact congrArg (Levels.mk _ <| some ·) hlevel
  | closing =>
    obtain ⟨outer, current⟩ := o
    match outer, current with
    | s :: outer, some e =>
      cases h
      exact congrArg (Levels.mk _ <| some ·) (s.level_fill (.group e))
    | [], _ | _ :: _, none => simp [next?] at h

theorem levels_read? {o o' : Outline Bool} {ts : List (Token Bool)} (h : o.read? ts = some o') :
    o'.levels = o.levels.read ts := by
  induction ts generalizing o with
  | nil => cases h; rfl
  | cons t ts ih =>
    obtain ⟨o₁, h₁, h⟩ := Option.bind_eq_some_iff.1 h
    rw [ih h, levels_next? h₁]
    rfl

end Outline

/-- Whatever values the comparisons have, as many levels are open as in the outline, and the
innermost has terms where that of the outline has. -/
theorem Levels.shape_read {ts : List (Token α)} {o : Outline α}
    (h : Outline.empty.read? ts = some o) {values : List Bool}
    (hlength : values.length = (ts.filterMap Token.leaf?).length) :
    (empty.read (Token.valued values ts)).outer.length = o.outer.length ∧
      (empty.read (Token.valued values ts)).current.isSome = o.current.isSome := by
  obtain ⟨us, rfl, hvalued, -⟩ := Token.exists_beside hlength
  have hsnd : Outline.empty.read? (us.map (Token.map Prod.snd)) =
      (Outline.empty.read? us).map (Outline.bind fun p => .leaf p.2) :=
    Outline.read?_map Prod.snd .empty us
  have hfst : Outline.empty.read? (us.map (Token.map Prod.fst)) =
      (Outline.empty.read? us).map (Outline.bind fun p => .leaf p.1) :=
    Outline.read?_map Prod.fst .empty us
  obtain ⟨p, hp, rfl⟩ := Option.map_eq_some_iff.1 (hsnd.symm.trans h)
  rw [hp, hvalued] at hfst
  have hlevels : (p.bind fun p => .leaf p.1).levels = empty.read (Token.valued values _) :=
    Outline.levels_read? hfst
  rw [← hlevels]
  simp [Outline.levels, Outline.bind]

/-! ## Undecided levels -/

/-- Levels that hold as soon as their next term does. -/
def Undecided (levels : List Level) : Prop := ∀ level ∈ levels, level = ⟨false, true⟩

theorem Undecided.tail {levels : List Level} (h : Undecided levels) : Undecided levels.tail :=
  fun level hlevel => h level (List.mem_of_mem_tail hlevel)

theorem Undecided.headD {levels : List Level} (h : Undecided levels) :
    levels.headD .start = ⟨false, true⟩ := by
  cases levels with
  | nil => rfl
  | cons level levels => exact h level (.head _)

/-- No level is decided yet: the ones around the innermost hold as soon as their next term does, and
so does the innermost, unless its last run has failed. -/
structure Levels.Open (current : Bool) (s : Levels) : Prop where
  outer : Undecided s.outer
  current : ∀ level ∈ s.current, level = ⟨false, current⟩

/-- In front of a term the innermost level holds when the run before holds, where "and" goes on with
it, and when that has failed, where "or" begins another. -/
theorem Levels.Open.lead {s : Levels} {l : Logical} (h : s.Open (l == .and)) :
    s.lead l = ⟨false, true⟩ := by
  obtain ⟨outer, current⟩ := s
  cases current with
  | none => rfl
  | some level =>
    obtain rfl := h.current level rfl
    cases l <;> rfl

/-- In front of a token the levels can be such that it leaves them undecided. -/
theorem Levels.exists_open_next (t : Token α) (b : Bool) :
    ∃ b', ∀ s : Levels, s.Open b' → (s.next (t.map fun _ => b)).Open b := by
  cases t with
  | opening l =>
    refine ⟨l == .and, fun s hs => ⟨?_, nofun⟩⟩
    exact List.forall_mem_cons.2 ⟨hs.lead, hs.outer⟩
  | comparison l a =>
    refine ⟨l == .and, fun s hs => ⟨hs.outer, ?_⟩⟩
    rintro level hlevel
    obtain rfl : (s.lead l).meet b = level := Option.some.inj hlevel
    rw [hs.lead]
    rfl
  | closing =>
    refine ⟨b, fun ⟨outer, current⟩ hs => ?_⟩
    cases current with
    | none => exact hs
    | some level =>
      obtain rfl := hs.current level rfl
      refine ⟨hs.outer.tail, ?_⟩
      rintro level hlevel
      obtain rfl := Option.some.inj hlevel
      rw [hs.outer.headD]
      rfl

theorem Token.valued_singleton (t : Token α) (b : Bool) :
    valued (t.leaf?.toList.map fun _ => b) [t] = [t.map fun _ => b] := by
  cases t <;> rfl

theorem Token.leaves_singleton (t : Token α) : [t].filterMap leaf? = t.leaf?.toList := by
  cases t <;> rfl

/-- The comparisons can have values under which no level is decided. -/
theorem exists_open (ts : List (Token α)) (b : Bool) : ∃ values : List Bool,
    values.length = (ts.filterMap Token.leaf?).length ∧
      (Levels.empty.read (Token.valued values ts)).Open b := by
  induction ts using List.reverseRecOn generalizing b with
  | nil => exact ⟨[], rfl, nofun, nofun⟩
  | append_singleton ts t ih =>
    obtain ⟨b', hnext⟩ := Levels.exists_open_next t b
    obtain ⟨values, hlength, hopen⟩ := ih b'
    refine ⟨values ++ t.leaf?.toList.map fun _ => b, ?_, ?_⟩
    · rw [List.filterMap_append, Token.leaves_singleton]
      simp [hlength]
    · rw [Token.valued_append hlength, Token.valued_singleton, Levels.read_append]
      exact hnext _ hopen

/-! ## Levels apart -/

/-- The first level holds; the second one has failed, unless a run behind it holds. -/
structure Level.Apart (level level' : Level) : Prop where
  value : level.value = true
  failed : level' = ⟨false, false⟩

/-- All that has been read of a level has one value. -/
structure Level.Settled (b : Bool) (level : Level) : Prop where
  current : level.current = b
  value : level.value = b

/-- Two readings differ in one level. The levels around it are undecided; those within, if there are
any, are parts of a term whose value keeps the difference. -/
inductive Levels.Apart : Levels → Levels → Prop
  | here {outer : List Level} {level level' : Level} (houter : Undecided outer)
    (h : level.Apart level') : Apart ⟨outer, some level⟩ ⟨outer, some level'⟩
  | within (inner : List Level) {outer : List Level} {current : Option Level}
    {level level' : Level} {b : Bool}
    (houter : Undecided outer) (h : (level.meet b).Apart (level'.meet b))
    (hinner : ∀ level ∈ inner, (level.meet b).Settled b)
    (hcurrent : ∀ level ∈ current, level.Settled b) :
    Apart ⟨inner ++ level :: outer, current⟩ ⟨inner ++ level' :: outer, current⟩

theorem Levels.settled_lead {s : Levels} {b : Bool} (h : ∀ level ∈ s.current, level.Settled b)
    (l : Logical) : ((s.lead l).meet b).Settled b := by
  obtain ⟨outer, current⟩ := s
  cases current with
  | none => cases b <;> exact ⟨rfl, rfl⟩
  | some level =>
    obtain ⟨before, current⟩ := level
    obtain ⟨rfl, hvalue⟩ := h _ rfl
    cases before <;> cases current <;> cases l <;> first | exact ⟨rfl, rfl⟩ | cases hvalue

/-- A term that holds behind "and", or fails behind "or", keeps the difference. -/
theorem Level.Apart.lead {outer : List Level} {level level' : Level} (h : level.Apart level')
    (l : Logical) : ((Levels.lead ⟨outer, some level⟩ l).meet (l == .and)).Apart
      ((Levels.lead ⟨outer, some level'⟩ l).meet (l == .and)) := by
  obtain ⟨before, current⟩ := level
  obtain ⟨hvalue, rfl⟩ := h
  cases l <;> cases before <;> cases current <;> first | exact ⟨rfl, rfl⟩ | cases hvalue

/-- Whatever token comes next, its comparison can have a value that keeps the difference. -/
theorem Levels.Apart.exists_next {s s' : Levels} (h : s.Apart s') (t : Token α) :
    ∃ b, (s.next (t.map fun _ => b)).Apart (s'.next (t.map fun _ => b)) := by
  cases h with
  | @here outer level level' houter h =>
    cases t with
    | opening l => exact ⟨true, .within [] houter (h.lead l) nofun nofun⟩
    | comparison l a => exact ⟨l == .and, .here houter (h.lead l)⟩
    | closing =>
      refine ⟨true, .here houter.tail ?_⟩
      rw [houter.headD, h.value, h.failed]
      exact ⟨rfl, rfl⟩
  | @within inner outer current level level' b houter h hinner hcurrent =>
    have hlead (l : Logical) := settled_lead (s := ⟨[], current⟩) hcurrent l
    cases t with
    | opening l =>
      refine ⟨b, .within (_ :: inner) houter h ?_ nofun⟩
      exact List.forall_mem_cons.2 ⟨hlead l, hinner⟩
    | comparison l a =>
      refine ⟨b, .within inner houter h hinner ?_⟩
      rintro level hlevel
      obtain rfl := Option.some.inj hlevel
      exact hlead l
    | closing =>
      refine ⟨b, ?_⟩
      cases current with
      | none => exact .within inner houter h hinner hcurrent
      | some term =>
        have hterm := (hcurrent term rfl).value
        cases inner with
        | nil =>
          refine .here houter ?_
          rw [hterm]
          exact h
        | cons around inner =>
          obtain ⟨haround, hinner⟩ := List.forall_mem_cons.1 hinner
          refine .within inner houter h hinner ?_
          rintro level hlevel
          obtain rfl := Option.some.inj hlevel
          rw [hterm]
          exact haround

/-- In front of tokens with values, another one may have any value. -/
theorem Token.exists_valued_cons (t : Token α) (b : Bool) {ts : List (Token α)}
    {values : List Bool} (hlength : values.length = (ts.filterMap leaf?).length) :
    ∃ values' : List Bool, values'.length = ((t :: ts).filterMap leaf?).length ∧
      valued values' (t :: ts) = t.map (fun _ => b) :: valued values ts := by
  cases t with
  | opening l => exact ⟨values, hlength, rfl⟩
  | comparison l a => exact ⟨b :: values, congrArg (· + 1) hlength, rfl⟩
  | closing => exact ⟨values, hlength, rfl⟩

/-- Whatever tokens come next, their comparisons can have values that keep the difference. -/
theorem Levels.Apart.exists_read {s s' : Levels} (h : s.Apart s') (ts : List (Token α)) :
    ∃ values : List Bool, values.length = (ts.filterMap Token.leaf?).length ∧
      (s.read (Token.valued values ts)).Apart (s'.read (Token.valued values ts)) := by
  induction ts generalizing s s' with
  | nil => exact ⟨[], rfl, h⟩
  | cons t ts ih =>
    obtain ⟨b, hnext⟩ := h.exists_next t
    obtain ⟨values, hlength, hread⟩ := ih hnext
    obtain ⟨values', hlength', hvalued⟩ := t.exists_valued_cons b hlength
    refine ⟨values', hlength', ?_⟩
    rw [hvalued]
    exact hread

/-- At the end, readings that differ in a level differ in value. -/
theorem Levels.Apart.value_ne {s s' : Levels} (h : s.Apart s') (hs : s.outer = []) :
    s.value ≠ s'.value := by
  cases h with
  | here houter h =>
    have hvalue := h.value
    have hfailed := congrArg Level.value h.failed
    intro heq
    cases hvalue.symm.trans (heq.trans hfailed)
  | within => exact absurd hs (List.append_ne_nil_of_right_ne_nil _ (List.cons_ne_nil _ _))

end QueryCriteria
