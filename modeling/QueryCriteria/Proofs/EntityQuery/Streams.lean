import QueryCriteria.Proofs.EntityQuery.Draft
/-!
# Streams of criteria

Restrictions, joins and orders do not meet in a draft: what becomes of a criterion depends on the
part of the draft that is its own, and changes nothing else (`add_withWhere`, `addJoin_withJoins`,
`addOrder_withOrders`). So it does not matter how the calls of the three streams are interleaved
(`interleaved_run`).
-/

namespace QueryCriteria.EntityQuery

inductive Stream where
  | restrictions
  | joins
  | orders
deriving DecidableEq

/-- The stream that a call with one criterion belongs to. -/
def Call.stream? : Call → Option Stream
  | .add _ => some .restrictions
  | .addJoin _ => some .joins
  | .addOrder _ => some .orders
  | .addAll _ | .addJoins _ | .addOrders _ | .apply _ => none

def Stream.has (s : Stream) (call : Call) : Bool := call.stream? = some s

/-- The calls of three streams in some order that keeps the order within each. -/
inductive Interleaves : List Criterion → List Criterion → List Criterion → List Call → Prop
  | nil : Interleaves [] [] [] []
  | add {rs js os : List Criterion} {calls : List Call} (c : Criterion)
      (h : Interleaves rs js os calls) : Interleaves (c :: rs) js os (.add c :: calls)
  | addJoin {rs js os : List Criterion} {calls : List Call} (c : Criterion)
      (h : Interleaves rs js os calls) : Interleaves rs (c :: js) os (.addJoin c :: calls)
  | addOrder {rs js os : List Criterion} {calls : List Call} (c : Criterion)
      (h : Interleaves rs js os calls) : Interleaves rs js (c :: os) (.addOrder c :: calls)

variable {rs js os : List Criterion} {calls calls' : List Call}

/-- Every call of an interleaving belongs to a stream. -/
theorem Interleaves.exists_stream (h : Interleaves rs js os calls) :
    ∀ call ∈ calls, ∃ s, call.stream? = some s := by
  induction h with
  | nil => simp
  | add c _ ih | addJoin c _ ih | addOrder c _ ih =>
    exact List.forall_mem_cons.2 ⟨⟨_, rfl⟩, ih⟩

/-- Interleavings of the same streams have the same calls of each, in the same order. -/
theorem Interleaves.filter_eq (h : Interleaves rs js os calls) (s : Stream) :
    calls.filter s.has = match s with
      | .restrictions => rs.map .add
      | .joins => js.map .addJoin
      | .orders => os.map .addOrder := by
  induction h with
  | nil => cases s <;> rfl
  | add c _ ih | addJoin c _ ih | addOrder c _ ih =>
    cases s <;> simpa [List.filter_cons, Stream.has, Call.stream?] using ih

namespace Draft

variable {d d' : Draft} {c : Criterion}

/-! ## The parts of a draft -/

/-- A draft with the where clause of another one. -/
def withWhere (rest d : Draft) : Draft :=
  { rest with
    rootAlias := d.rootAlias
    restrictions := d.restrictions
    parameters := d.parameters
    openGroups := d.openGroups
    restrictionCriteria := d.restrictionCriteria }

def withJoins (rest d : Draft) : Draft :=
  { rest with joins := d.joins, joinCriteria := d.joinCriteria }

def withOrders (rest d : Draft) : Draft :=
  { rest with orders := d.orders, orderCriteria := d.orderCriteria }

theorem carries_withWhere (rest : Draft) : Carries rest.withWhere id id where
  role _ := rfl
  enclosure _ := rfl
  restrictions _ := rfl
  openGroups _ := rfl
  connective _ _ := rfl
  predicate d c := by
    change d.predicate c = _
    cases d.predicate c <;> simp [Except.map]
  taken _ _ _ value _ := by cases value <;> rfl

/-- What becomes of a restriction or bracket is a matter of the where clause alone. -/
theorem add_withWhere (rest d : Draft) (c : Criterion) :
    (rest.withWhere d).add c = (d.add c).map rest.withWhere :=
  (carries_withWhere rest).add d c

theorem addJoin_withJoins (rest d : Draft) (c : Criterion) :
    (rest.withJoins d).addJoin c = (d.addJoin c).map rest.withJoins := by
  refine addJoin_map rfl (fun _ => rfl) fun operand => ?_
  unfold pushJoin
  rw [apply_ite rest.withJoins]
  rfl

theorem addOrder_withOrders (rest d : Draft) (c : Criterion) :
    (rest.withOrders d).addOrder c = (d.addOrder c).map rest.withOrders :=
  addOrder_map rfl (fun _ => rfl) fun _ => rfl

/-- No call changes the entity or the hints. -/
theorem fixed_run (d : Draft) (calls : List Call) :
    (d.run calls).entity = d.entity ∧ (d.run calls).hints = d.hints := by
  apply run_keeps (P := fun d' => d'.entity = d.entity ∧ d'.hints = d.hints) _ _ _ ⟨rfl, rfl⟩
  · intro d₁ c d₂ hd h
    obtain ⟨_, _, _, -, rfl, -⟩ := add_cases h
    exact hd
  · intro d₁ c d₂ hd h
    obtain ⟨_, -, -, rfl⟩ := addOrder_cases h
    exact hd
  · intro d₁ c d₂ hd h
    obtain ⟨operand, -, -, rfl⟩ := addJoin_cases h
    obtain ⟨joins, joinCriteria, heq⟩ := pushJoin_eq d₁ ⟨c.join, none, operand, none⟩ c
    rw [heq]
    exact hd

/-! ## Interleavings -/

/-- The part of a draft that a stream makes. -/
def part (s : Stream) (d : Draft) : Draft :=
  match s with
  | .restrictions => (start "" "").withWhere d
  | .joins => (start "" "").withJoins d
  | .orders => (start "" "").withOrders d

/-- A draft is told by its parts, besides its entity and its hints. -/
theorem eq_of_part (hentity : d.entity = d'.entity) (hhints : d.hints = d'.hints)
    (hpart : ∀ s, part s d = part s d') : d = d' := by
  have hrestrictions := hpart .restrictions
  have hjoins := hpart .joins
  have horders := hpart .orders
  cases d
  cases d'
  simp_all [part, withWhere, withJoins, withOrders]

/-- A call of a stream sees the part of its own. -/
theorem perform_part {s : Stream} {call : Call} (h : s.has call = true) (d : Draft) :
    (part s d).perform call = (d.perform call).map (part s) := by
  have hstream : call.stream? = some s := of_decide_eq_true h
  cases call with
  | add c =>
    cases hstream
    exact add_withWhere _ d c
  | addOrder c =>
    cases hstream
    exact addOrder_withOrders _ d c
  | addJoin c =>
    cases hstream
    exact addJoin_withJoins _ d c
  | addAll | addOrders | addJoins | apply => cases hstream

/-- A call of another stream does not show in a part. -/
theorem part_of_perform {s s' : Stream} {call : Call} (hcall : call.stream? = some s')
    (hne : s' ≠ s) (hperform : d.perform call = .ok d') : part s d' = part s d := by
  cases call with
  | add c =>
    cases hcall
    obtain ⟨_, _, _, -, rfl, -⟩ := add_cases hperform
    cases s <;> first | rfl | exact absurd rfl hne
  | addOrder c =>
    cases hcall
    obtain ⟨_, -, -, rfl⟩ := addOrder_cases hperform
    cases s <;> first | rfl | exact absurd rfl hne
  | addJoin c =>
    cases hcall
    obtain ⟨operand, -, -, rfl⟩ := addJoin_cases hperform
    obtain ⟨joins, joinCriteria, heq⟩ := pushJoin_eq d ⟨c.join, none, operand, none⟩ c
    rw [heq]
    cases s <;> first | rfl | exact absurd rfl hne
  | addAll | addOrders | addJoins | apply => cases hcall

/-- The calls of a run that belong to a stream, each with its outcome. -/
def outcomesOf (s : Stream) (d : Draft) (calls : List Call) : List (Call × Except Fault Unit) :=
  (calls.zip (outcomes perform d calls)).filter fun entry => s.has entry.1

/-- Of an interleaving, a stream has the outcomes and makes the part that its calls alone have and
make. -/
theorem part_run (h : Interleaves rs js os calls) (s : Stream) (d : Draft) :
    outcomesOf s d calls =
        (calls.filter s.has).zip (outcomes perform (part s d) (calls.filter s.has)) ∧
      part s (d.run calls) = (part s d).run (calls.filter s.has) := by
  rw [outcomesOf, run, run]
  apply run_project
  · intro d call _ hs
    exact perform_part hs d
  · intro d d' call hmem hs hperform
    obtain ⟨s', hcall⟩ := h.exists_stream call hmem
    apply part_of_perform hcall _ hperform
    rintro rfl
    exact absurd hcall (of_decide_eq_false hs)

/-- However the calls of three streams are interleaved, every call has the same outcome, and the
draft is the same in the end. -/
theorem interleaved_run (d : Draft) (h : Interleaves rs js os calls)
    (h' : Interleaves rs js os calls') :
    (∀ s, outcomesOf s d calls = outcomesOf s d calls') ∧ d.run calls = d.run calls' := by
  have hfilter (s : Stream) : calls.filter s.has = calls'.filter s.has := by
    rw [h.filter_eq, h'.filter_eq]
  constructor
  · intro s
    rw [(part_run h s d).1, (part_run h' s d).1, hfilter]
  · obtain ⟨hentity, hhints⟩ := fixed_run d calls
    obtain ⟨hentity', hhints'⟩ := fixed_run d calls'
    apply eq_of_part (hentity.trans hentity'.symm) (hhints.trans hhints'.symm)
    intro s
    rw [(part_run h s d).2, (part_run h' s d).2, hfilter]

/-- Each stream has a call that does nothing: a restriction without a connective and an order that
is none are refused, and a join made twice is skipped. They do so wherever they stand. -/
theorem interleaved_run_refused :
    let d := start "Order" "order"
    let city := Criterion.comparing "city" .equal (.string "Mesa")
    let street := Criterion.testing "street" .isNull
    let lines := Criterion.joining "lines" .left
    let byCity := Criterion.ordering "city" .ascending
    let calls : List Call := [.add city, .addJoin lines, .add street, .addOrder byCity,
      .addJoin lines, .addOrder lines]
    let calls' : List Call := [.addOrder byCity, .addJoin lines, .addOrder lines, .add city,
      .addJoin lines, .add street]
    Interleaves [city, street] [lines, lines] [byCity, lines] calls ∧
      Interleaves [city, street] [lines, lines] [byCity, lines] calls' ∧
      (outcomesOf .restrictions d calls).map (·.2) = [.ok (), .error (.missingLogical "street")] ∧
      (outcomesOf .orders d calls).map (·.2) = [.ok (), .error .notAnOrder] ∧
      (d.run calls).text = "select distinct order from Order order left join order.lines" ++
        " where order.city = :param1 order by order.city asc" ∧
      (∀ s, outcomesOf s d calls = outcomesOf s d calls') ∧ d.run calls = d.run calls' := by
  intro d city street lines byCity calls calls'
  have h : Interleaves [city, street] [lines, lines] [byCity, lines] calls :=
    .add _ (.addJoin _ (.add _ (.addOrder _ (.addJoin _ (.addOrder _ .nil)))))
  have h' : Interleaves [city, street] [lines, lines] [byCity, lines] calls' :=
    .addOrder _ (.addJoin _ (.addOrder _ (.add _ (.addJoin _ (.add _ .nil)))))
  exact ⟨h, h', rfl, rfl, by decide, interleaved_run d h h'⟩

end Draft

end QueryCriteria.EntityQuery
