import QueryCriteria.CriteriaSet
import QueryCriteria.Proofs.Value
/-!
# Sets of criteria through JSON

What becomes of a set without floats when it is written and read (`ofJson?_toJson`): the set with
its values as they are read, or nothing when the document is nested too deeply. A set that has been
read is one of those that come back as they are (`ofJson?_normal`).
-/

namespace QueryCriteria

/-! ## Records -/

namespace Json

theorem heightItems_le {items : List Json} {n : Nat} :
    heightItems items ≤ n ↔ ∀ item ∈ items, item.height ≤ n := by
  induction items with
  | nil => simp [heightItems]
  | cons item items ih => rw [heightItems, Nat.max_le, ih, List.forall_mem_cons]

theorem heightMembers_le {members : List (String × Json)} {n : Nat} :
    heightMembers members ≤ n ↔ ∀ member ∈ members, member.2.height ≤ n := by
  induction members with
  | nil => simp [heightMembers]
  | cons member members ih => rw [heightMembers, Nat.max_le, ih, List.forall_mem_cons]

section
variable {members : List (String × Option Json)}

theorem mem_present {name : String} {j : Json} :
    (name, j) ∈ members.filterMap (fun member => member.2.map (member.1, ·)) ↔
      (name, some j) ∈ members := by
  simp only [List.mem_filterMap, Option.map_eq_some_iff, Prod.mk.injEq]
  constructor
  · rintro ⟨⟨_, _⟩, hmem, _, rfl, rfl, rfl⟩
    exact hmem
  · intro hmem
    exact ⟨_, hmem, j, rfl, rfl, rfl⟩

theorem forall_mem_present {P : Json → Prop} :
    (∀ member ∈ members.filterMap (fun member => member.2.map (member.1, ·)), P member.2) ↔
      ∀ member ∈ members, ∀ j ∈ member.2, P j := by
  constructor
  · rintro h ⟨name, _⟩ hmem j rfl
    exact h (name, j) (mem_present.2 hmem)
  · rintro h ⟨name, j⟩ hmem
    exact h (name, some j) (mem_present.1 hmem) j rfl

variable (members) in
theorem height_present_le {n : Nat} : (present members).height ≤ n + 1 ↔
    ∀ member ∈ members, ∀ j ∈ member.2, j.height ≤ n := by
  rw [present, height, Nat.add_le_add_iff_right, heightMembers_le]
  exact forall_mem_present (P := fun j => j.height ≤ n)

theorem plain_present (h : ∀ member ∈ members, ∀ j ∈ member.2, j.Plain) : (present members).Plain :=
  .object (forall_mem_present.2 h)

/-- A member with a name of its own is found under it, or found to be absent. -/
theorem field?_present {name : String} {j : Option Json} (hnames : (members.map Prod.fst).Nodup)
    (hmem : (name, j) ∈ members) :
    field? (members.filterMap fun member => member.2.map (member.1, ·)) name = some j := by
  have hnone (rest : List (String × Option Json)) (hrest : name ∉ rest.map Prod.fst) :
      (rest.filterMap fun member => member.2.map (member.1, ·)).filter
        (fun member => member.1 = name) = [] := by
    rw [List.filter_eq_nil_iff]
    rintro ⟨name', j'⟩ hmem' heq
    obtain rfl := of_decide_eq_true heq
    exact hrest (List.mem_map_of_mem (mem_present.1 hmem'))
  have hfilter : (members.filterMap fun member => member.2.map (member.1, ·)).filter
      (fun member => member.1 = name) = j.toList.map (name, ·) := by
    induction members with
    | nil => cases hmem
    | cons member rest ih =>
      obtain ⟨hhead, hrest⟩ := List.nodup_cons.1 hnames
      rcases List.mem_cons.1 hmem with rfl | hmem
      · cases j with
        | none => simpa using hnone rest hhead
        | some j => simpa using hnone rest hhead
      · have hne : member.1 ≠ name := by
          rintro rfl
          exact hhead (List.mem_map.2 ⟨_, hmem, rfl⟩)
        cases hj : member.2 with
        | none => simpa [hj] using ih hrest hmem
        | some j' => simpa [hj, hne] using ih hrest hmem
  rw [field?, hfilter]
  cases j <;> rfl

variable (members) in
/-- A record is read from the object that it was written as. -/
theorem fields?_present (hnames : (members.map Prod.fst).Nodup) :
    (present members).fields? (members.map Prod.fst) = some (members.map Prod.snd) := by
  have hfields (rest : List (String × Option Json)) (hrest : ∀ member ∈ rest, member ∈ members) :
      (rest.map Prod.fst).mapM
          (field? (members.filterMap fun member => member.2.map (member.1, ·))) =
        some (rest.map Prod.snd) := by
    induction rest with
    | nil => rfl
    | cons member rest ih =>
      rw [List.map_cons, List.mapM_cons, field?_present hnames (hrest member (.head _)),
        ih fun member hmem => hrest member (.tail _ hmem)]
      rfl
  exact hfields members fun _ hmem => hmem

end

end Json

/-! ## Operators -/

/-- No two operators of a kind share a word. -/
class LawfulOperator (α : Type) [DecidableEq α] [Operator α] : Prop where
  ofWord?_word (op : α) : Operator.ofWord? (Operator.word op) = some op

instance : LawfulOperator Comparison := ⟨by intro op; cases op <;> rfl⟩
instance : LawfulOperator Logical := ⟨by intro op; cases op <;> rfl⟩
instance : LawfulOperator Enclosure := ⟨by intro op; cases op <;> rfl⟩
instance : LawfulOperator Join := ⟨by intro op; cases op <;> rfl⟩
instance : LawfulOperator Direction := ⟨by intro op; cases op <;> rfl⟩

namespace Operator

variable {α : Type} [DecidableEq α] [Operator α]

theorem ofField?_toJson? [LawfulOperator α] (op : α) : ofField? (toJson? op) = some op := by
  cases hdefined : isDefined op with
  | true => simp [toJson?, hdefined, ofField?, ofJson?, LawfulOperator.ofWord?_word]
  | false =>
    rw [toJson?, hdefined, isDefined_eq_false.1 hdefined]
    rfl

theorem exists_word {op : α} {j : Json} (h : toJson? op = some j) : ∃ word, j = .string word := by
  rw [toJson?] at h
  split at h
  · cases h
    exact ⟨_, rfl⟩
  · cases h

end Operator

/-! ## Criteria -/

theorem Value.toJson_ne_null {v : Value} (h : v.hasFloat = false) : v.toJson ≠ .null := by
  cases v with
  | float x => cases h
  | _ => exact nofun

theorem Value.ofJson?_toJson {room : Nat} {v v' : Value} (h : v.hasFloat = false) :
    Value.ofJson? room v.toJson = some v' ↔ v.toJson.height ≤ room ∧ v.asRead = v' := by
  simp [ofJson?, Json.isReadable, isMeaningful_toJson v h, ofTree?_toJson v h]

namespace Criterion

/-- The criterion with its value as it is read. -/
def asRead (c : Criterion) : Criterion := { c with value := c.value.map .asRead }

theorem operandOfField?_map (operand : Option String) :
    operandOfField? (operand.map .string) = some operand := by
  cases operand <;> rfl

theorem valueOfField?_map {room : Nat} {value value' : Option Value}
    (h : ∀ v ∈ value, v.hasFloat = false) :
    valueOfField? room (value.map Value.toJson) = some value' ↔
      (∀ v ∈ value, v.toJson.height ≤ room) ∧ value.map .asRead = value' := by
  cases value with
  | none => simp [valueOfField?]
  | some v =>
    have hfloat := h v rfl
    rw [Option.map_some, valueOfField?]
    · simp only [Option.map_eq_some_iff, Value.ofJson?_toJson hfloat, and_assoc, exists_and_left,
        exists_eq_left', Option.mem_def, Option.some.injEq, forall_eq', Option.map_some]
    · exact fun hnull => Value.toJson_ne_null hfloat hnull

/-- The members that a criterion is written with. -/
def members (c : Criterion) : List (String × Option Json) := [
  ("operand", c.operand.map .string),
  ("value", c.value.map Value.toJson),
  ("comparison", Operator.toJson? c.comparison),
  ("logical", Operator.toJson? c.logical),
  ("enclosure", Operator.toJson? c.enclosure),
  ("join", Operator.toJson? c.join),
  ("order", Operator.toJson? c.order)]

/-- But for the value, a criterion is written in strings. -/
theorem forall_members {c : Criterion} {P : Json → Prop} (hstring : ∀ s, P (.string s)) :
    (∀ member ∈ c.members, ∀ j ∈ member.2, P j) ↔ ∀ v ∈ c.value, P v.toJson := by
  have hword {α : Type} [DecidableEq α] [Operator α] (op : α) (j : Json)
      (hj : Operator.toJson? op = some j) : P j := by
    obtain ⟨word, rfl⟩ := Operator.exists_word hj
    exact hstring word
  constructor
  · intro h v hv
    exact h ("value", c.value.map Value.toJson) (.tail _ (.head _)) _ (Option.mem_map_of_mem _ hv)
  · intro h
    have hoperand : ∀ j ∈ c.operand.map Json.string, P j := by
      intro j hj
      obtain ⟨s, -, rfl⟩ := Option.mem_map.1 hj
      exact hstring s
    have hvalue : ∀ j ∈ c.value.map Value.toJson, P j := by
      intro j hj
      obtain ⟨v, hv, rfl⟩ := Option.mem_map.1 hj
      exact h v hv
    simp only [members, List.forall_mem_cons]
    exact ⟨hoperand, hvalue, hword _, hword _, hword _, hword _, hword _, List.forall_mem_nil _⟩

theorem height_toJson_le {c : Criterion} {n : Nat} :
    c.toJson.height ≤ n + 1 ↔ ∀ v ∈ c.value, v.toJson.height ≤ n :=
  (Json.height_present_le c.members).trans (forall_members fun _ => Nat.zero_le n)

theorem plain_toJson {c : Criterion} (h : ∀ v ∈ c.value, v.hasFloat = false) : c.toJson.Plain := by
  have hplain : ∀ v ∈ c.value, v.toJson.Plain := fun v hv => v.plain_toJson (h v hv)
  exact Json.plain_present ((forall_members .string).2 hplain)

/-- A criterion without floats is read back from its tree, if there is room for its value. -/
theorem ofJson?_toJson {room : Nat} {c c' : Criterion} (h : ∀ v ∈ c.value, v.hasFloat = false) :
    ofJson? (room + 1) c.toJson = some c' ↔
      (∀ v ∈ c.value, v.toJson.height ≤ room) ∧ c.asRead = c' := by
  have hfields : c.toJson.fields? fieldNames = some (c.members.map Prod.snd) :=
    Json.fields?_present c.members (by simp only [members, List.map]; decide)
  simp only [ofJson?, hfields]
  simp only [members, List.map, Option.bind_eq_bind, Option.bind_some, Nat.add_sub_cancel,
    operandOfField?_map, Operator.ofField?_toJson?, Option.bind_eq_some_iff, valueOfField?_map h,
    and_assoc, exists_and_left, exists_eq_left', Option.pure_def, Option.some.injEq]
  rfl

/-- The value of a criterion that has been read was read too. -/
theorem valueOfField?_of_ofJson? {room : Nat} {j : Json} {c : Criterion}
    (h : ofJson? room j = some c) : ∃ field, valueOfField? (room - 1) field = some c.value := by
  simp only [ofJson?, Option.bind_eq_bind, Option.bind_eq_some_iff] at h
  obtain ⟨fields, -, h⟩ := h
  split at h
  · simp only [Option.bind_eq_some_iff] at h
    obtain ⟨operand, -, value, hvalue, _, -, _, -, _, -, _, -, _, -, hc⟩ := h
    cases hc
    exact ⟨_, hvalue⟩
  · cases h

/-- A value that has been read has no list of two strings, and is nested no deeper than there was
room for. -/
theorem ofJson?_normal {room : Nat} {j : Json} {c : Criterion} (h : ofJson? (room + 1) j = some c) :
    ∀ v ∈ c.value, v.hasPair = false ∧ v.toJson.height ≤ room := by
  obtain ⟨field, hfield⟩ := valueOfField?_of_ofJson? h
  intro v hv
  rw [Option.mem_def.1 hv, valueOfField?.eq_def] at hfield
  split at hfield
  · cases hfield
  · cases hfield
  · next j _ =>
    simp only [Option.map_eq_some_iff, Option.some.injEq, exists_eq_right, Nat.add_sub_cancel,
      Value.ofJson?] at hfield
    split at hfield
    · next hreadable =>
      have hheight : j.height ≤ room := by
        rw [Json.isReadable, Bool.and_eq_true, decide_eq_true_eq] at hreadable
        exact hreadable.2
      obtain ⟨hpair, hle⟩ := Value.ofTree?_normal j v hfield
      exact ⟨hpair, Nat.le_trans hle hheight⟩
    · cases hfield

end Criterion

namespace CriteriaSet

/-- The set with its values as they are read. -/
def asRead (set : CriteriaSet) : CriteriaSet where
  restrictions := set.restrictions.map .asRead
  joins := set.joins.map .asRead
  orders := set.orders.map .asRead

/-- All criteria of a set. -/
def criteria (set : CriteriaSet) : List Criterion := set.restrictions ++ set.joins ++ set.orders

/-- All values of a set. -/
def values (set : CriteriaSet) : List Value := set.criteria.filterMap Criterion.value

/-- No value of the set has a float in it. -/
def FloatFree (set : CriteriaSet) : Prop := ∀ v ∈ set.values, v.hasFloat = false

instance (set : CriteriaSet) : Decidable set.FloatFree :=
  inferInstanceAs (Decidable (∀ v ∈ set.values, v.hasFloat = false))

theorem forall_values {set : CriteriaSet} {P : Value → Prop} : (∀ v ∈ set.values, P v) ↔
    (∀ c ∈ set.restrictions, ∀ v ∈ c.value, P v) ∧ (∀ c ∈ set.joins, ∀ v ∈ c.value, P v) ∧
      ∀ c ∈ set.orders, ∀ v ∈ c.value, P v := by
  have hcriteria : (∀ v ∈ set.values, P v) ↔ ∀ c ∈ set.criteria, ∀ v ∈ c.value, P v := by
    simp only [values, List.mem_filterMap, forall_exists_index, and_imp, Option.mem_def]
    exact ⟨fun h c hc v hv => h v c hc hv, fun h v c hc hv => h c hc v hv⟩
  simp only [hcriteria, criteria, List.forall_mem_append, and_assoc]

/-! ## Streams -/

theorem streamOfField?_streamToJson? {cs cs' : List Criterion}
    (h : ∀ c ∈ cs, ∀ v ∈ c.value, v.hasFloat = false) :
    streamOfField? (streamToJson? cs) = some cs' ↔
      (∀ c ∈ cs, ∀ v ∈ c.value, v.toJson.height ≤ Json.depthLimit - 3) ∧ cs.map .asRead = cs' := by
  have hitems : (cs.map Criterion.toJson).mapM (Criterion.ofJson? (Json.depthLimit - 2)) = some cs' ↔
      (∀ c ∈ cs, ∀ v ∈ c.value, v.toJson.height ≤ Json.depthLimit - 3) ∧ cs.map .asRead = cs' := by
    induction cs generalizing cs' with
    | nil => simp
    | cons c cs ih =>
      have hhead (c' : Criterion) : Criterion.ofJson? (Json.depthLimit - 2) c.toJson = some c' ↔
          (∀ v ∈ c.value, v.toJson.height ≤ Json.depthLimit - 3) ∧ c.asRead = c' :=
        Criterion.ofJson?_toJson (h c (.head _))
      rw [List.map_cons, List.mapM_cons]
      simp only [Option.bind_eq_bind, Option.bind_eq_some_iff, hhead,
        ih fun c hc => h c (.tail _ hc)]
      simp [and_assoc]
  cases cs with
  | nil => simp [streamToJson?, streamOfField?]
  | cons c cs => exact hitems

theorem height_streamToJson?_le {cs : List Criterion} {n : Nat} :
    (∀ j ∈ streamToJson? cs, j.height ≤ n + 2) ↔ ∀ c ∈ cs, ∀ v ∈ c.value, v.toJson.height ≤ n := by
  simp only [← Criterion.height_toJson_le]
  cases cs with
  | nil => simp [streamToJson?]
  | cons c cs => simp [streamToJson?, Json.height, Json.heightItems_le]

theorem plain_streamToJson? {cs : List Criterion}
    (h : ∀ c ∈ cs, ∀ v ∈ c.value, v.hasFloat = false) : ∀ j ∈ streamToJson? cs, j.Plain := by
  intro j hj
  rw [streamToJson?] at hj
  split at hj
  · cases hj
  · cases hj
    apply Json.Plain.array
    intro item hitem
    obtain ⟨c, hc, rfl⟩ := List.mem_map.1 hitem
    exact Criterion.plain_toJson (h c hc)

/-- What has been read as a stream was read criterion by criterion. -/
theorem ofJson?_of_streamOfField? {field : Option Json} {cs : List Criterion}
    (h : streamOfField? field = some cs) :
    ∀ c ∈ cs, ∃ j, Criterion.ofJson? (Json.depthLimit - 2) j = some c := by
  unfold streamOfField? at h
  split at h
  · cases h
    simp
  · next items =>
    induction items generalizing cs with
    | nil =>
      cases h
      simp
    | cons item items ih =>
      simp only [List.mapM_cons, Option.bind_eq_bind, Option.bind_eq_some_iff] at h
      obtain ⟨c, hc, rest, hrest, heq⟩ := h
      cases heq
      simp only [List.forall_mem_cons]
      exact ⟨⟨item, hc⟩, ih hrest⟩
  · cases h

/-! ## Sets -/

/-- The members that a set is written with. -/
def members (set : CriteriaSet) : List (String × Option Json) := [
  ("restrictions", streamToJson? set.restrictions),
  ("joins", streamToJson? set.joins),
  ("orders", streamToJson? set.orders)]

theorem forall_members {set : CriteriaSet} {P : Json → Prop} :
    (∀ member ∈ set.members, ∀ j ∈ member.2, P j) ↔
      (∀ j ∈ streamToJson? set.restrictions, P j) ∧
        (∀ j ∈ streamToJson? set.joins, P j) ∧ ∀ j ∈ streamToJson? set.orders, P j := by
  simp [members]

/-- The values of a set stand three levels below the top of its document. -/
theorem height_toJson_le {set : CriteriaSet} {n : Nat} :
    set.toJson.height ≤ n + 3 ↔ ∀ v ∈ set.values, v.toJson.height ≤ n := by
  simp only [forall_values, ← height_streamToJson?_le]
  exact (Json.height_present_le set.members).trans forall_members

theorem plain_toJson {set : CriteriaSet} (h : set.FloatFree) : set.toJson.Plain := by
  obtain ⟨hrestrictions, hjoins, horders⟩ := forall_values.1 h
  apply Json.plain_present
  exact forall_members.2 ⟨plain_streamToJson? hrestrictions, plain_streamToJson? hjoins,
    plain_streamToJson? horders⟩

/-- A set without floats is read back from its tree, if that is not nested too deeply. -/
theorem ofJson?_toJson {set set' : CriteriaSet} (h : set.FloatFree) :
    ofJson? set.toJson = some set' ↔ set.toJson.height ≤ Json.depthLimit ∧ set.asRead = set' := by
  obtain ⟨hrestrictions, hjoins, horders⟩ := forall_values.1 h
  have hfields : set.toJson.fields? ["restrictions", "joins", "orders"] =
      some (set.members.map Prod.snd) :=
    Json.fields?_present set.members (by simp only [members, List.map]; decide)
  have hheight : set.toJson.height ≤ Json.depthLimit ↔ _ :=
    height_toJson_le (n := Json.depthLimit - 3)
  simp only [hheight, forall_values, ofJson?, hfields]
  simp only [members, List.map, Option.bind_eq_bind, Option.bind_some, Option.bind_eq_some_iff,
    streamOfField?_streamToJson? hrestrictions, streamOfField?_streamToJson? hjoins,
    streamOfField?_streamToJson? horders]
  simp [and_assoc, asRead]

theorem read?_compact {set set' : CriteriaSet} (h : set.FloatFree) :
    read? set.toJson.compact = some set' ↔
      set.toJson.height ≤ Json.depthLimit ∧ set.asRead = set' := by
  rw [read?, (plain_toJson h).read?_compact]
  exact ofJson?_toJson h

/-! ## Sets that have been read -/

theorem asRead_eq_self_iff {set : CriteriaSet} :
    set.asRead = set ↔ ∀ v ∈ set.values, v.hasPair = false := by
  have hcriterion (c : Criterion) : c.asRead = c ↔ ∀ v ∈ c.value, v.hasPair = false := by
    obtain ⟨operand, value, comparison, logical, enclosure, join, order⟩ := c
    cases value with
    | none => simp [Criterion.asRead]
    | some v => simp [Criterion.asRead, Value.asRead_eq_self_iff]
  have hstream (cs : List Criterion) :
      cs.map .asRead = cs ↔ ∀ c ∈ cs, ∀ v ∈ c.value, v.hasPair = false := by
    have hmap : cs.map .asRead = cs.map id ↔ ∀ c ∈ cs, c.asRead = id c := List.map_inj_left
    simpa only [List.map_id, id, hcriterion] using hmap
  obtain ⟨restrictions, joins, orders⟩ := set
  simp [forall_values, asRead, hstream]

/-- A set that has been read has no list of two strings, and fits a document. -/
theorem ofJson?_normal {j : Json} {set : CriteriaSet} (h : ofJson? j = some set) :
    (∀ v ∈ set.values, v.hasPair = false) ∧ set.toJson.height ≤ Json.depthLimit := by
  have hstream (field : Option Json) (cs : List Criterion) (hcs : streamOfField? field = some cs) :
      ∀ c ∈ cs, ∀ v ∈ c.value, v.hasPair = false ∧ v.toJson.height ≤ Json.depthLimit - 3 := by
    intro c hc
    obtain ⟨j, hj⟩ := ofJson?_of_streamOfField? hcs c hc
    exact Criterion.ofJson?_normal hj
  have hvalues : ∀ v ∈ set.values, v.hasPair = false ∧ v.toJson.height ≤ Json.depthLimit - 3 := by
    rw [forall_values]
    simp only [ofJson?, Option.bind_eq_bind, Option.bind_eq_some_iff] at h
    obtain ⟨fields, -, h⟩ := h
    split at h
    · simp only [Option.bind_eq_some_iff] at h
      obtain ⟨restrictions, hrestrictions, joins, hjoins, orders, horders, hset⟩ := h
      cases hset
      exact ⟨hstream _ _ hrestrictions, hstream _ _ hjoins, hstream _ _ horders⟩
    · cases h
  constructor
  · exact fun v hv => (hvalues v hv).1
  · apply (height_toJson_le (n := Json.depthLimit - 3)).2
    exact fun v hv => (hvalues v hv).2

/-- A set without floats comes back from its document, with an entity for every list of exactly two
strings: as it was when there is no such list, and so always when it came from a document. -/
theorem read?_round_trip :
    (∀ set : CriteriaSet, set.FloatFree → set.toJson.height ≤ Json.depthLimit →
      read? set.toJson.compact = some set.asRead ∧
      (read? set.toJson.compact = some set ↔ ∀ v ∈ set.values, v.hasPair = false)) ∧
    ∀ (text : String) (set : CriteriaSet), read? text = some set → set.FloatFree →
      read? set.toJson.compact = some set := by
  have hround (set : CriteriaSet) (hfloat : set.FloatFree)
      (hheight : set.toJson.height ≤ Json.depthLimit) :
      read? set.toJson.compact = some set.asRead := (read?_compact hfloat).2 ⟨hheight, rfl⟩
  constructor
  · intro set hfloat hheight
    have hread := hround set hfloat hheight
    refine ⟨hread, ?_⟩
    rw [hread, Option.some.injEq]
    exact asRead_eq_self_iff
  · intro text set hset hfloat
    -- What has been read holds no such list any more, and fits the document that it came from.
    obtain ⟨j, -, hj⟩ := Option.bind_eq_some_iff.1 hset
    obtain ⟨hpair, hheight⟩ := ofJson?_normal hj
    rw [hround set hfloat hheight, asRead_eq_self_iff.2 hpair]

/-- A list of two strings inside another list becomes an entity, once and for all. -/
theorem read?_round_trip_nested :
    let set : CriteriaSet :=
      { restrictions := [.comparing "name" .equal
          (.list [.integer (-7), .list [.string "Ann", .string "\x22\n"]])]
        joins := [.joining "team" .left] }
    set.FloatFree ∧ set.toJson.height ≤ Json.depthLimit ∧
      read? set.toJson.compact = some set.asRead ∧ read? set.toJson.compact ≠ some set ∧
      read? set.asRead.toJson.compact = some set.asRead := by
  intro set
  have hfloat : set.FloatFree := by decide
  have hheight : set.toJson.height ≤ Json.depthLimit := by decide
  obtain ⟨hread, hself⟩ := read?_round_trip.1 set hfloat hheight
  refine ⟨hfloat, hheight, hread, ?_, ?_⟩
  · rw [Ne, hself]
    decide
  · exact read?_round_trip.2 _ _ hread (by decide)

end CriteriaSet

end QueryCriteria
