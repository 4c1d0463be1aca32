import Mathlib.Data.List.Induction
import QueryCriteria.EntityQuery.Fetching
import QueryCriteria.Proofs.FetchPlan.Chain
import QueryCriteria.Text.Blank
/-!
# Paths and numbered names

What the texts made of relation names tell, when the names are plain: a dotted path tells its steps
(`Chain.path_inj`), and a name with a number behind it tells both (`numbered_inj`). The paths of a
plan over plain names grow one from another (`grows_fetchPlan`).
-/

namespace QueryCriteria

namespace EntityQuery

/-! ## Plain names -/

/-- A name that is one step of a dotted path and can be told from a number behind it: it holds no
dot and does not end in a digit. -/
def PlainName (name : String) : Prop :=
  '.' ∉ name.toList ∧ name.toList.getLast?.any Char.isDigit = false

instance (name : String) : Decidable (PlainName name) :=
  inferInstanceAs (Decidable (_ ∧ _))

/-- The name of a joined relation that others are joined from: that of the relation with a number
behind it. -/
def numbered (name : String) (n : Nat) : String := name ++ toString n

/-- The digits at the end of a numbered name are those of the number. -/
theorem takeWhile_reverse_numbered {name : String} (h : PlainName name) (n : Nat) :
    (numbered name n).toList.reverse.takeWhile Char.isDigit = (Nat.toDigits 10 n).reverse := by
  have hdigits : ∀ c ∈ (Nat.toDigits 10 n).reverse, c.isDigit = true := by
    intro c hc
    exact Nat.isDigit_of_mem_toDigits (by decide) (by decide) (List.mem_reverse.1 hc)
  have hstop : name.toList.reverse.takeWhile Char.isDigit = [] := by
    have hlast := h.2
    rw [List.getLast?_eq_head?_reverse] at hlast
    cases hname : name.toList.reverse with
    | nil => rfl
    | cons c cs =>
      rw [hname] at hlast
      have hc : c.isDigit = false := hlast
      simp [hc]
  have htext : (numbered name n).toList.reverse =
      (Nat.toDigits 10 n).reverse ++ name.toList.reverse := by
    simp [numbered]
  rw [htext, List.takeWhile_append_of_pos hdigits, hstop, List.append_nil]

theorem numbered_inj {name name' : String} (h : PlainName name) (h' : PlainName name') {n n' : Nat}
    (heq : numbered name n = numbered name' n') : name = name' ∧ n = n' := by
  have hdigits : Nat.toDigits 10 n = Nat.toDigits 10 n' := by
    rw [← List.reverse_inj, ← takeWhile_reverse_numbered h, ← takeWhile_reverse_numbered h', heq]
  have hnumber : n = n' := by
    rw [← Nat.ofDigitChars_ten_toDigits (n := n), hdigits, Nat.ofDigitChars_ten_toDigits]
  subst hnumber
  exact ⟨String.append_left_inj _ |>.1 heq, rfl⟩

/-! ## Dotted paths -/

theorem splitPath_of_notMem {path : String} (h : '.' ∉ path.toList) : splitPath path = none := by
  have hall : path.toList.reverse.all (· != '.') = true := by
    rw [List.all_eq_true]
    intro c hc
    simp only [bne_iff_ne, ne_eq]
    rintro rfl
    exact h (List.mem_reverse.1 hc)
  simp only [splitPath, (Text.dropWhile_eq_nil_iff_all _ _).2 hall]

theorem splitPath_append {name : String} (h : '.' ∉ name.toList) (parent : String) :
    splitPath (parent ++ "." ++ name) = some (parent, name) := by
  have hname : ∀ c ∈ name.toList.reverse, (c != '.') = true := by
    intro c hc
    simp only [bne_iff_ne, ne_eq]
    rintro rfl
    exact h (List.mem_reverse.1 hc)
  have htext : (parent ++ "." ++ name).toList.reverse =
      name.toList.reverse ++ '.' :: parent.toList.reverse := by
    simp
  simp only [splitPath, htext, List.dropWhile_append_of_pos hname,
    List.takeWhile_append_of_pos hname]
  simp

/-- What a path is split into makes the path. -/
theorem eq_of_splitPath {path parent name : String} (h : splitPath path = some (parent, name)) :
    path = parent ++ "." ++ name := by
  dsimp only [splitPath] at h
  split at h
  · cases h
  · next dot rest hdrop =>
    cases h
    have hdot : dot = '.' := by
      have hhead := List.head?_dropWhile_not (· != '.') path.toList.reverse
      rw [hdrop] at hhead
      simpa using hhead
    have hsplit := List.takeWhile_append_dropWhile (p := (· != '.')) (l := path.toList.reverse)
    rw [hdrop, hdot] at hsplit
    rw [← String.toList_inj]
    simpa using (congrArg List.reverse hsplit).symm

end EntityQuery

namespace FetchPlan.Chain

open EntityQuery (PlainName splitPath splitPath_of_notMem splitPath_append)

/-- The path of a chain is its name alone, or is split behind the path of the chain it continues. -/
theorem splitPath_path {c : Chain} (h : '.' ∉ c.last.name.toList) :
    splitPath c.path = none ∧ c.names = [c.path] ∨
      ∃ d : Chain, d.steps = c.before ∧ splitPath c.path = some (d.path, c.last.name) := by
  rcases List.eq_nil_or_concat c.before with hbefore | ⟨before, last, hbefore⟩
  · rw [path_of_root hbefore, names, steps, hbefore]
    exact .inl ⟨splitPath_of_notMem h, rfl⟩
  · have hsteps : (⟨before, last⟩ : Chain).steps = c.before := by
      rw [hbefore, steps, List.concat_eq_append]
    refine .inr ⟨⟨before, last⟩, hsteps, ?_⟩
    rw [path_of_steps hsteps]
    exact splitPath_append h _

theorem names_of_steps {c d : Chain} (h : d.steps = c.before) : c.names = d.names ++ [c.last.name] := by
  rw [names, steps, ← h, List.map_append]
  rfl

/-- Two chains of names without dots that have the same path have the same names. -/
theorem path_inj {c d : Chain} (hc : ∀ r ∈ c.steps, '.' ∉ r.name.toList)
    (hd : ∀ r ∈ d.steps, '.' ∉ r.name.toList) (h : c.path = d.path) : c.names = d.names := by
  have hclast := hc c.last (by simp [steps])
  have hdlast := hd d.last (by simp [steps])
  rcases splitPath_path hclast with ⟨hcpath, hcnames⟩ | ⟨c', hc', hcpath⟩ <;>
    rcases splitPath_path hdlast with ⟨hdpath, hdnames⟩ | ⟨d', hd', hdpath⟩
  · rw [hcnames, hdnames, h]
  · cases hcpath.symm.trans (h ▸ hdpath)
  · cases hcpath.symm.trans (h ▸ hdpath)
  · have hsplit : (c'.path, c.last.name) = (d'.path, d.last.name) :=
      Option.some.inj (hcpath.symm.trans (h ▸ hdpath))
    obtain ⟨hpath, hname⟩ := Prod.mk.inj hsplit
    have hshorter : c'.before.length < c.before.length := by
      rw [← hc', steps, List.length_append]
      exact Nat.lt_add_one _
    have hnames : c'.names = d'.names := by
      apply path_inj _ _ hpath
      · intro r hr
        exact hc r (List.mem_append_left _ (hc' ▸ hr))
      · intro r hr
        exact hd r (List.mem_append_left _ (hd' ▸ hr))
    rw [names_of_steps hc', names_of_steps hd', hnames, hname]
termination_by c.before.length

end FetchPlan.Chain

/-! ## Paths of a plan -/

/-- The name of a relation that an entity of the schema declares. -/
def Schema.Relates (s : Schema) (name : String) : Prop :=
  ∃ e ∈ s.toList, ∃ r ∈ e.relations, r.name = name

instance (s : Schema) (name : String) : Decidable (s.Relates name) :=
  inferInstanceAs (Decidable (∃ _ ∈ _, ∃ _ ∈ _, _ = _))

/-- The relations of every entity have distinct names, and all of these are plain. -/
def Schema.PlainNames (s : Schema) : Prop :=
  ∀ e ∈ s.toList, (e.relations.map (·.name)).Nodup ∧
    ∀ r ∈ e.relations, EntityQuery.PlainName r.name

instance (s : Schema) : Decidable s.PlainNames :=
  inferInstanceAs (Decidable (∀ _ ∈ _, _ ∧ _))

theorem Schema.Relates.plain {s : Schema} {name : String} (hplain : s.PlainNames)
    (h : s.Relates name) : EntityQuery.PlainName name := by
  obtain ⟨e, he, r, hr, rfl⟩ := h
  exact (hplain e he).2 r hr

namespace FetchPlan

variable {schema : Schema} {root : Entity}

/-- Each path is the name of a relation or continues a path in front of it by one, and none occurs
twice, where `done` is in front of all. -/
def Grows (schema : Schema) (done : List String) : List String → Prop
  | [] => True
  | path :: rest => path ∉ done ∧
      (schema.Relates path ∨
        ∃ parent ∈ done, ∃ name, schema.Relates name ∧ path = parent ++ "." ++ name) ∧
      Grows schema (done ++ [path]) rest

/-- The paths of chains in order, of distinct and plain names, grow one from another. -/
theorem grows_of_ordered {done cs : List Chain} (hplain : schema.PlainNames)
    (hnames : ∀ c ∈ done ++ cs, ∀ r ∈ c.steps, schema.Relates r.name)
    (hnodup : ((done ++ cs).map Chain.names).Nodup) (hordered : Ordered done cs) :
    Grows schema (done.map Chain.path) (cs.map Chain.path) := by
  induction cs generalizing done with
  | nil => exact trivial
  | cons c cs ih =>
    obtain ⟨hc, hordered⟩ := hordered
    have hassoc : done ++ c :: cs = done ++ [c] ++ cs := by simp
    have hundotted : ∀ d ∈ done ++ c :: cs, ∀ r ∈ d.steps, '.' ∉ r.name.toList := by
      intro d hd r hr
      exact ((hnames d hd r hr).plain hplain).1
    have hcmem : c ∈ done ++ c :: cs := by simp
    have hlast : schema.Relates c.last.name := hnames c hcmem c.last (by simp [Chain.steps])
    refine ⟨?_, ?_, ?_⟩
    · -- The path tells the names of the chain, and no other chain has these.
      intro hmem
      obtain ⟨d, hd, hpath⟩ := List.mem_map.1 hmem
      have heq := Chain.path_inj (hundotted d (List.mem_append_left _ hd)) (hundotted c hcmem) hpath
      rw [List.map_append, List.nodup_append] at hnodup
      exact hnodup.2.2 _ (List.mem_map_of_mem hd) c.names (List.mem_map_of_mem (.head _)) heq
    · rcases hc with hbefore | ⟨d, hd, hsteps⟩
      · rw [Chain.path_of_root hbefore]
        exact .inl hlast
      · rw [Chain.path_of_steps hsteps]
        exact .inr ⟨d.path, List.mem_map_of_mem hd, c.last.name, hlast, rfl⟩
    · rw [hassoc] at hnames hnodup
      have hgrows := ih hnames hnodup hordered
      rwa [List.map_append] at hgrows

/-- The paths of a plan over plain names grow one from another. -/
theorem grows_fetchPlan (hplain : schema.PlainNames) (hroot : root ∈ schema.toList)
    (maxDepth : UInt8) :
    Grows schema [] ((fetchPlan schema root maxDepth).map (·.path)) := by
  obtain ⟨cs, hcs, htraces⟩ := exists_traces schema root maxDepth
  have hnames : ∀ c ∈ cs, ∀ r ∈ c.steps, schema.Relates r.name := by
    refine htraces.forall_out ?_ ?_
    · intro c hc r hr
      obtain ⟨r', hr', rfl⟩ := mem_rootChains hc
      obtain rfl := List.mem_singleton.1 hr
      exact ⟨root, hroot, _, hr', rfl⟩
    · intro c e hc he r hr r' hr'
      rcases List.mem_append.1 hr' with hr' | hr'
      · exact hc r' hr'
      · obtain rfl := List.mem_singleton.1 hr'
        exact ⟨e, Schema.mem_toList_of_entity? he, _, hr, rfl⟩
  have hnodup : (cs.map Chain.names).Nodup := by
    refine htraces.nodup_names ?_ ?_
    · intro name e he
      exact (hplain e (Schema.mem_toList_of_entity? he)).1
    · unfold rootChains
      split
      · exact .nil
      · refine List.pairwise_map.2 ?_
        apply (List.pairwise_map.1 (hplain root hroot).1).imp
        intro r r' hne
        simpa [Chain.Apart, Chain.names, Chain.steps] using ⟨hne, hne.symm⟩
  have hordered : Ordered [] cs := by
    apply htraces.ordered
    intro c hc
    obtain ⟨r, -, rfl⟩ := mem_rootChains hc
    exact .inl rfl
  have hpaths : (fetchPlan schema root maxDepth).map (·.path) = cs.map Chain.path := by
    rw [fetchPlan, hcs, List.map_map, List.map_map]
    rfl
  rw [hpaths]
  show Grows schema (([] : List Chain).map Chain.path) _
  exact grows_of_ordered hplain hnames hnodup hordered

end FetchPlan

end QueryCriteria
