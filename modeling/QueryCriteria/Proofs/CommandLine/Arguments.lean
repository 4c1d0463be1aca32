import Mathlib.Data.List.Nodup
import QueryCriteria.CommandLine
import QueryCriteria.Proofs.Outcome
import QueryCriteria.Proofs.Prefix
/-!
# Arguments

The arguments that are taken for a command are those that spell it: its word, then its options in
any order, each with its value in the same argument or the next one
(`request_eq_compile_iff`).
-/

namespace QueryCriteria.CommandLine

/-! ## One option -/

/-- The argument that names an option, with its value when that is in the same argument. -/
def optionText (name : String) : Option String → String
  | none => "--" ++ name
  | some value => "--" ++ name ++ "=" ++ value

variable {name value argument : String} {joined : Option String}

theorem splitOption?_optionText (h : '=' ∉ name.toList) (joined : Option String) :
    splitOption? (optionText name joined) = some (name, joined) := by
  have hname : ∀ c ∈ name.toList, (c != '=') = true := by
    intro c hc
    simpa using fun heq : c = '=' => h (heq ▸ hc)
  cases joined with
  | none =>
    have htake := takeWhile_append_of_stops hname (stops_nil _)
    have hdrop := dropWhile_append_of_stops hname (stops_nil _)
    simp only [List.append_nil] at htake hdrop
    simp [splitOption?, optionText, htake, hdrop]
  | some value =>
    have hstops : Stops (· != '=') ('=' :: value.toList) := stops_cons.2 rfl
    have htake := takeWhile_append_of_stops hname hstops
    have hdrop := dropWhile_append_of_stops hname hstops
    simp [splitOption?, optionText, htake, hdrop]

theorem optionText_of_splitOption? (h : splitOption? argument = some (name, joined)) :
    argument = optionText name joined := by
  unfold splitOption? at h
  split at h
  · next body hbody =>
    have hparts := List.takeWhile_append_dropWhile (p := (· != '=')) (l := body)
    have hstops := stops_dropWhile (· != '=') body
    dsimp only at h
    split at h
    · next hrest =>
      cases h
      rw [hrest, List.append_nil] at hparts
      simp [← String.toList_inj, optionText, hbody, hparts]
    · next c rest hrest =>
      cases h
      rw [hrest, stops_cons] at hstops
      obtain rfl : c = '=' := by simpa using hstops
      rw [hrest] at hparts
      simp [← String.toList_inj, optionText, hbody, hparts]
  · cases h

/-- What an option may be called, so that its argument is no other. -/
structure Nameable (name : String) : Prop where
  plain : '=' ∉ name.toList
  nonempty : name ≠ ""
  not_help : name ≠ "help"

/-- The argument of an option neither ends the options nor calls for help. -/
theorem Nameable.optionText_ne (h : Nameable name) (joined : Option String) :
    optionText name joined ≠ "--" ∧ optionText name joined ≠ "--help" ∧
      (optionText name joined).startsWith "-h" = false := by
  have hsplit := splitOption?_optionText h.plain joined
  refine ⟨fun heq => ?_, fun heq => ?_, ?_⟩
  · rw [heq] at hsplit
    exact h.nonempty (congrArg Prod.fst (Option.some.inj hsplit)).symm
  · rw [heq] at hsplit
    exact h.not_help (congrArg Prod.fst (Option.some.inj hsplit)).symm
  · rw [← Bool.not_eq_true, String.startsWith_string_iff]
    cases joined <;> simp [optionText, List.cons_prefix_cons]

/-! ## Options in a row -/

/-- A value has an argument of its own when that does not begin with a dash, or is one. -/
def StandsApart (value : String) : Prop := value = "-" ∨ value.toList.head? ≠ some '-'

instance (value : String) : Decidable (StandsApart value) := inferInstanceAs (Decidable (_ ∨ _))

theorem isValue_iff : isValue value = true ↔ StandsApart value := by
  have hprefix : value.startsWith "-" = true ↔ value.toList.head? = some '-' := by
    rw [String.startsWith_string_iff]
    cases value.toList with
    | nil => simp
    | cons c cs => simp [List.cons_prefix_cons, eq_comm]
  rw [isValue, StandsApart, ne_eq, ← hprefix]
  simp

/-- Arguments that give options, each with its value joined to it or apart. Two dashes may end
them. -/
inductive Spells : List (String × String) → List String → Prop
  | none : Spells [] []
  | ended : Spells [] ["--"]
  | joined (name value : String) {options : List (String × String)} {arguments : List String}
    (h : Spells options arguments) :
    Spells ((name, value) :: options) (optionText name (some value) :: arguments)
  | apart (name : String) {value : String} (hvalue : StandsApart value)
    {options : List (String × String)} {arguments : List String} (h : Spells options arguments) :
    Spells ((name, value) :: options) (optionText name none :: value :: arguments)

/-- Options that may be given together: they are known, take their values, and do not occur
twice. -/
structure Admits (names : List String) (options : List (String × String)) : Prop where
  nodup : (options.map Prod.fst).Nodup
  known : ∀ option ∈ options, option.1 ∈ names
  accepted : ∀ option ∈ options, accepts option.1 option.2 = true

variable {names arguments : List String} {given options result : List (String × String)}

theorem admits_nil : Admits names [] := ⟨.nil, nofun, nofun⟩

theorem Admits.left (h : Admits names (given ++ options)) : Admits names given :=
  ⟨(List.nodup_append.1 (List.map_append ▸ h.nodup)).1,
    fun option hoption => h.known option (List.mem_append_left _ hoption),
    fun option hoption => h.accepted option (List.mem_append_left _ hoption)⟩

theorem admits_concat_iff : Admits names (given ++ [(name, value)]) ↔
    Admits names given ∧ name ∈ names ∧ name ∉ given.map Prod.fst ∧ accepts name value = true := by
  have hnodup : ((given ++ [(name, value)]).map Prod.fst).Nodup ↔
      (given.map Prod.fst).Nodup ∧ name ∉ given.map Prod.fst := by
    rw [List.map_append, List.map_singleton, ← List.concat_eq_append, List.nodup_concat, and_comm]
  constructor
  · intro h
    have hlast : (name, value) ∈ given ++ [(name, value)] := by simp
    exact ⟨h.left, h.known _ hlast, (hnodup.1 h.nodup).2, h.accepted _ hlast⟩
  · rintro ⟨h, hname, hfresh, haccepts⟩
    refine ⟨hnodup.2 ⟨h.nodup, hfresh⟩, ?_, ?_⟩
    · rw [List.forall_mem_append]
      exact ⟨h.known, by simpa using hname⟩
    · rw [List.forall_mem_append]
      exact ⟨h.accepted, by simpa using haccepts⟩

/-- An option is refused when it is not known, or has been given before. -/
theorem not_refused_iff :
    (!names.contains name || given.any fun option => decide (option.1 = name)) = false ↔
      name ∈ names ∧ name ∉ given.map Prod.fst := by
  simp only [Bool.or_eq_false_iff, Bool.not_eq_false', List.contains_iff_mem, List.any_eq_false,
    decide_eq_true_eq, List.mem_map, not_exists, not_and]

/-- What is read is spelled by the arguments and goes together with what has been given before. -/
theorem spells_of_readOptions (h : readOptions names given arguments = .ok result)
    (hgiven : Admits names given) :
    Admits names result ∧ ∃ options, result = given ++ options ∧ Spells options arguments := by
  fun_induction readOptions names given arguments with
  | case1 given =>
    cases h
    exact ⟨hgiven, [], by simp, .none⟩
  | case2 given =>
    cases h
    exact ⟨hgiven, [], by simp, .ended⟩
  | case6 given argument hhelp name hguard value rest haccepts hend hsplit ih =>
    obtain ⟨hname, hfresh⟩ := not_refused_iff.1 (Bool.not_eq_true _ ▸ hguard)
    obtain ⟨hresult, options, rfl, hspells⟩ :=
      ih h (admits_concat_iff.2 ⟨hgiven, hname, hfresh, haccepts⟩)
    rw [optionText_of_splitOption? hsplit]
    exact ⟨hresult, (name, value) :: options, by simp, .joined name value hspells⟩
  | case8 given argument hhelp name hguard value rest haccepts hend hsplit ih =>
    obtain ⟨hname, hfresh⟩ := not_refused_iff.1 (Bool.not_eq_true _ ▸ hguard)
    obtain ⟨hvalue, haccepts⟩ := Bool.and_eq_true_iff.1 haccepts
    obtain ⟨hresult, options, rfl, hspells⟩ :=
      ih h (admits_concat_iff.2 ⟨hgiven, hname, hfresh, haccepts⟩)
    rw [optionText_of_splitOption? hsplit]
    exact ⟨hresult, (name, value) :: options, by simp, .apart name (isValue_iff.1 hvalue) hspells⟩
  | case3 | case4 | case5 | case7 | case9 | case10 => cases h

/-- One option that may be given next is read, and the others behind it. -/
theorem readOptions_optionText (hname : Nameable name) (h : Admits names (given ++ [(name, value)]))
    (rest : List String) :
    readOptions names given (optionText name (some value) :: rest) =
        readOptions names (given ++ [(name, value)]) rest ∧
      (StandsApart value → readOptions names given (optionText name none :: value :: rest) =
        readOptions names (given ++ [(name, value)]) rest) := by
  obtain ⟨-, hknown, hfresh, haccepts⟩ := admits_concat_iff.1 h
  have hguard := not_refused_iff.2 ⟨hknown, hfresh⟩
  have hhelp (joined : Option String) : (decide (optionText name joined = "--help") ||
      (optionText name joined).startsWith "-h") = false := by
    obtain ⟨-, hhelp, hshort⟩ := hname.optionText_ne joined
    simp [hhelp, hshort]
  constructor
  · rw [readOptions.eq_3 _ _ _ _ fun heq => absurd heq (hname.optionText_ne _).1, hhelp,
      splitOption?_optionText hname.plain]
    simp only [hguard, haccepts]
    rfl
  · intro hvalue
    rw [readOptions.eq_3 _ _ _ _ fun heq => absurd heq (hname.optionText_ne _).1, hhelp,
      splitOption?_optionText hname.plain]
    simp only [hguard, isValue_iff.2 hvalue, haccepts]
    rfl

theorem readOptions_of_spells (hnames : ∀ name ∈ names, Nameable name)
    (h : Spells options arguments) (hoptions : Admits names (given ++ options)) :
    readOptions names given arguments = .ok (given ++ options) := by
  induction h generalizing given with
  | none => simp [readOptions]
  | ended => simp [readOptions]
  | joined name value h ih =>
    rw [List.append_cons] at hoptions ⊢
    have hname := hnames name (admits_concat_iff.1 hoptions.left).2.1
    rw [(readOptions_optionText hname hoptions.left _).1, ih hoptions]
  | apart name hvalue h ih =>
    rw [List.append_cons] at hoptions ⊢
    have hname := hnames name (admits_concat_iff.1 hoptions.left).2.1
    rw [(readOptions_optionText hname hoptions.left _).2 hvalue, ih hoptions]

/-- Options are read exactly from the arguments that spell them. -/
theorem readOptions_eq_ok_iff (hnames : ∀ name ∈ names, Nameable name) :
    readOptions names [] arguments = .ok options ↔
      Spells options arguments ∧ Admits names options := by
  constructor
  · intro h
    obtain ⟨hoptions, _, rfl, hspells⟩ := spells_of_readOptions h admits_nil
    exact ⟨hspells, hoptions⟩
  · rintro ⟨hspells, hoptions⟩
    exact readOptions_of_spells hnames hspells hoptions

/-! ## Values of options -/

theorem valueOf?_eq_some_iff (h : (options.map Prod.fst).Nodup) :
    valueOf? name options = some value ↔ (name, value) ∈ options := by
  rw [valueOf?, Option.map_eq_some_iff]
  constructor
  · rintro ⟨option, hfind, rfl⟩
    obtain rfl : option.1 = name := by simpa using List.find?_some hfind
    exact List.mem_of_find?_eq_some hfind
  · intro hmem
    obtain ⟨option, hfind⟩ : ∃ option, options.find? (fun option => option.1 = name) = some option := by
      rw [← Option.isSome_iff_exists, List.find?_isSome]
      exact ⟨_, hmem, by simp⟩
    have hname : option.1 = name := by simpa using List.find?_some hfind
    have hone := List.inj_on_of_nodup_map h (List.mem_of_find?_eq_some hfind) hmem hname
    exact ⟨option, hfind, congrArg Prod.snd hone⟩

/-- The options of a table that have a value. -/
def optionsOf (table : List (String × Option String)) : List (String × String) :=
  table.filterMap fun entry => entry.2.map (entry.1, ·)

variable {table : List (String × Option String)}

theorem mem_optionsOf : (name, value) ∈ optionsOf table ↔ (name, some value) ∈ table := by
  simp [optionsOf]

theorem nodup_optionsOf (h : (table.map Prod.fst).Nodup) :
    ((optionsOf table).map Prod.fst).Nodup := by
  have hsub : ((optionsOf table).map Prod.fst).Sublist (table.map Prod.fst) := by
    induction table with
    | nil => exact .slnil
    | cons entry table ih =>
      obtain ⟨name, _ | value⟩ := entry
      · exact (ih h.of_cons).cons _
      · exact (ih h.of_cons).cons_cons _
  exact h.sublist hsub

variable (options) in
/-- Options with the values of a table may be given together exactly when they are, but for their
order, those of the table, and the values there are taken. -/
theorem admits_table_iff (htable : (table.map Prod.fst).Nodup) :
    Admits (table.map Prod.fst) options ∧ (∀ entry ∈ table, valueOf? entry.1 options = entry.2) ↔
      options.Perm (optionsOf table) ∧
        ∀ entry ∈ table, ∀ value ∈ entry.2, accepts entry.1 value = true := by
  constructor
  · rintro ⟨h, hvalues⟩
    constructor
    · rw [List.perm_ext_iff_of_nodup h.nodup.of_map (nodup_optionsOf htable).of_map]
      rintro ⟨name, value⟩
      rw [mem_optionsOf, ← valueOf?_eq_some_iff h.nodup]
      constructor
      · intro hvalue
        obtain ⟨entry, hentry, rfl⟩ :=
          List.mem_map.1 (h.known _ ((valueOf?_eq_some_iff h.nodup).1 hvalue))
        rwa [← hvalue, hvalues entry hentry]
      · exact hvalues _
    · rintro ⟨name, _⟩ hentry value rfl
      exact h.accepted _ ((valueOf?_eq_some_iff h.nodup).1 (hvalues _ hentry))
  · rintro ⟨hperm, haccepts⟩
    have hnodup := (hperm.map Prod.fst).nodup_iff.2 (nodup_optionsOf htable)
    refine ⟨⟨hnodup, ?_, ?_⟩, ?_⟩
    · rintro ⟨name, value⟩ hmem
      exact List.mem_map_of_mem (f := Prod.fst) (mem_optionsOf.1 (hperm.subset hmem))
    · rintro ⟨name, value⟩ hmem
      exact haccepts _ (mem_optionsOf.1 (hperm.subset hmem)) value rfl
    · rintro ⟨name, joined⟩ hentry
      ext value
      rw [valueOf?_eq_some_iff hnodup, hperm.mem_iff, mem_optionsOf]
      constructor
      · intro hvalue
        exact congrArg Prod.snd (List.inj_on_of_nodup_map htable hentry hvalue rfl)
      · rintro rfl
        exact hentry

/-! ## Commands -/

/-- The options of an entity query. -/
def entityQueryTable (schema entity : String) (criteria word : Option String) :
    List (String × Option String) :=
  [("schema", some schema), ("entity", some entity), ("criteria", criteria),
    ("fetch-strategy", word)]

/-- The options of a directory search. -/
def directorySearchTable (mapping : String) (criteria : Option String) :
    List (String × Option String) :=
  [("mapping", some mapping), ("criteria", criteria)]

/-- Arguments that spell a command: its word, then its options in any order. Paths are not empty,
and a strategy is given by a word that means it. -/
inductive Command.SpelledBy : Command → List String → Prop
  | entityQuery {schema entity : String} {criteria word : Option String}
    {strategy : Option FetchStrategy} {options : List (String × String)} {arguments : List String}
    (hspells : Spells options arguments)
    (hoptions : options.Perm (optionsOf (entityQueryTable schema entity criteria word)))
    (hschema : schema ≠ "") (hcriteria : criteria ≠ some "")
    (hstrategy : word.map FetchStrategy.read = strategy.map .ok) :
    SpelledBy (.entityQuery schema entity criteria strategy) ("relational" :: arguments)
  | directorySearch {mapping : String} {criteria : Option String}
    {options : List (String × String)} {arguments : List String}
    (hspells : Spells options arguments)
    (hoptions : options.Perm (optionsOf (directorySearchTable mapping criteria)))
    (hmapping : mapping ≠ "") (hcriteria : criteria ≠ some "") :
    SpelledBy (.directorySearch mapping criteria) ("directory" :: arguments)

variable {command : Command}

theorem required_eq_ok_iff :
    required name options = .ok value ↔ valueOf? name options = some value := by
  unfold required
  cases valueOf? name options <;> simp

/-- A strategy is what its word means, and no word means none. -/
theorem map_read_eq_iff {word : Option String} {strategy : Option FetchStrategy} :
    word.map FetchStrategy.read = strategy.map .ok ↔
      (∀ w ∈ word, (FetchStrategy.read w).isOk = true) ∧
        (word >>= fun w => (FetchStrategy.read w).toOption) = strategy := by
  cases word with
  | none => cases strategy <;> simp
  | some w =>
    simp only [Option.map_some, Option.mem_def, Option.some.injEq, forall_eq', Option.bind_eq_bind,
      Option.bind_some]
    cases FetchStrategy.read w <;> cases strategy <;>
      simp [Except.isOk, Except.toBool, Except.toOption]

theorem ne_some_empty_iff {path : Option String} :
    path ≠ some "" ↔ ∀ value ∈ path, value ≠ "" := by
  cases path <;> simp

/-- Options read for an entity query, by the table of their values. -/
theorem admits_entityQuery_iff {schema entity : String} {criteria word : Option String} :
    Admits ["schema", "entity", "criteria", "fetch-strategy"] options ∧
        valueOf? "schema" options = some schema ∧ valueOf? "entity" options = some entity ∧
        valueOf? "criteria" options = criteria ∧ valueOf? "fetch-strategy" options = word ↔
      options.Perm (optionsOf (entityQueryTable schema entity criteria word)) ∧ schema ≠ "" ∧
        criteria ≠ some "" ∧ ∀ w ∈ word, (FetchStrategy.read w).isOk = true := by
  have htable : ((entityQueryTable schema entity criteria word).map Prod.fst).Nodup := by
    show ["schema", "entity", "criteria", "fetch-strategy"].Nodup
    decide
  simpa [entityQueryTable, accepts, ne_some_empty_iff] using
    admits_table_iff options htable

theorem admits_directorySearch_iff {mapping : String} {criteria : Option String} :
    Admits ["mapping", "criteria"] options ∧ valueOf? "mapping" options = some mapping ∧
        valueOf? "criteria" options = criteria ↔
      options.Perm (optionsOf (directorySearchTable mapping criteria)) ∧ mapping ≠ "" ∧
        criteria ≠ some "" := by
  have htable : ((directorySearchTable mapping criteria).map Prod.fst).Nodup := by
    show ["mapping", "criteria"].Nodup
    decide
  simpa [directorySearchTable, accepts, ne_some_empty_iff] using
    admits_table_iff options htable

theorem readEntityQuery_eq_ok_iff :
    readEntityQuery arguments = .ok command ↔ command.SpelledBy ("relational" :: arguments) := by
  have hnames : ∀ name ∈ ["schema", "entity", "criteria", "fetch-strategy"], Nameable name := by
    simp only [List.forall_mem_cons]
    exact ⟨⟨by decide, by decide, by decide⟩, ⟨by decide, by decide, by decide⟩,
      ⟨by decide, by decide, by decide⟩, ⟨by decide, by decide, by decide⟩, nofun⟩
  simp only [readEntityQuery, bind_eq_ok_iff, readOptions_eq_ok_iff hnames, required_eq_ok_iff]
  constructor
  · rintro ⟨options, ⟨hspells, hadmits⟩, schema, hschema, entity, hentity, hcommand⟩
    cases hcommand
    obtain ⟨hperm, hpath, hcriteria, hword⟩ :=
      admits_entityQuery_iff.1 ⟨hadmits, hschema, hentity, rfl, rfl⟩
    exact .entityQuery hspells hperm hpath hcriteria (map_read_eq_iff.2 ⟨hword, rfl⟩)
  · intro h
    generalize hall : "relational" :: arguments = all at h
    cases h with
    | @entityQuery schema entity _ _ _ options _ hspells hperm hpath hcriteria hword =>
      obtain rfl := (List.cons.inj hall).2
      obtain ⟨hread, rfl⟩ := map_read_eq_iff.1 hword
      obtain ⟨hadmits, hschema, hentity, rfl, rfl⟩ :=
        admits_entityQuery_iff.2 ⟨hperm, hpath, hcriteria, hread⟩
      exact ⟨options, ⟨hspells, hadmits⟩, schema, hschema, entity, hentity, rfl⟩
    | directorySearch => exact absurd (List.cons.inj hall).1 (by decide)

theorem readDirectorySearch_eq_ok_iff :
    readDirectorySearch arguments = .ok command ↔ command.SpelledBy ("directory" :: arguments) := by
  have hnames : ∀ name ∈ ["mapping", "criteria"], Nameable name := by
    simp only [List.forall_mem_cons]
    exact ⟨⟨by decide, by decide, by decide⟩, ⟨by decide, by decide, by decide⟩, nofun⟩
  simp only [readDirectorySearch, bind_eq_ok_iff, readOptions_eq_ok_iff hnames, required_eq_ok_iff]
  constructor
  · rintro ⟨options, ⟨hspells, hadmits⟩, mapping, hmapping, hcommand⟩
    cases hcommand
    obtain ⟨hperm, hpath, hcriteria⟩ := admits_directorySearch_iff.1 ⟨hadmits, hmapping, rfl⟩
    exact .directorySearch hspells hperm hpath hcriteria
  · intro h
    generalize hall : "directory" :: arguments = all at h
    cases h with
    | entityQuery => exact absurd (List.cons.inj hall).1 (by decide)
    | @directorySearch mapping _ options _ hspells hperm hpath hcriteria =>
      obtain rfl := (List.cons.inj hall).2
      obtain ⟨hadmits, hmapping, rfl⟩ := admits_directorySearch_iff.2 ⟨hperm, hpath, hcriteria⟩
      exact ⟨options, ⟨hspells, hadmits⟩, mapping, hmapping, rfl⟩

/-! ## Requests -/

/-- Reading options never fails with a command. -/
theorem readOptions_ne_compile (names : List String) (given : List (String × String))
    (arguments : List String) : readOptions names given arguments ≠ .error (.compile command) := by
  fun_induction readOptions names given arguments with
  | case6 | case8 => assumption
  | case1 | case2 | case3 | case4 | case5 | case7 | case9 | case10 => exact nofun

theorem required_ne_compile (name : String) (given : List (String × String)) :
    required name given ≠ .error (.compile command) := by
  unfold required
  cases valueOf? name given <;> exact nofun

theorem readEntityQuery_ne_compile : readEntityQuery arguments ≠ .error (.compile command) :=
  bind_ne_error (readOptions_ne_compile _ _ _) fun _ _ =>
    bind_ne_error (required_ne_compile _ _) fun _ _ =>
      bind_ne_error (required_ne_compile _ _) fun _ _ => nofun

theorem readDirectorySearch_ne_compile :
    readDirectorySearch arguments ≠ .error (.compile command) :=
  bind_ne_error (readOptions_ne_compile _ _ _) fun _ _ =>
    bind_ne_error (required_ne_compile _ _) fun _ _ => nofun

theorem requestOf_eq_compile_iff {read : Except Request Command}
    (h : read ≠ .error (.compile command)) :
    requestOf read = .compile command ↔ read = .ok command := by
  cases read with
  | ok command' => simp [requestOf]
  | error request =>
    simp only [requestOf, reduceCtorEq, iff_false]
    rintro rfl
    exact h rfl

/-- Arguments ask for a command exactly when they spell it. -/
theorem request_eq_compile_iff :
    request arguments = .compile command ↔ command.SpelledBy arguments := by
  constructor
  · intro h
    unfold request at h
    split at h
    · rw [requestOf_eq_compile_iff readEntityQuery_ne_compile] at h
      exact readEntityQuery_eq_ok_iff.1 h
    · rw [requestOf_eq_compile_iff readDirectorySearch_ne_compile] at h
      exact readDirectorySearch_eq_ok_iff.1 h
    · cases h
    · split at h <;> cases h
    · cases h
    · cases h
    · split at h
      · cases h
      · split at h <;> cases h
    · cases h
  · intro h
    cases h with
    | entityQuery hspells hoptions hschema hcriteria hstrategy =>
      rw [request, requestOf_eq_compile_iff readEntityQuery_ne_compile, readEntityQuery_eq_ok_iff]
      exact .entityQuery hspells hoptions hschema hcriteria hstrategy
    | directorySearch hspells hoptions hmapping hcriteria =>
      rw [request, requestOf_eq_compile_iff readDirectorySearch_ne_compile,
        readDirectorySearch_eq_ok_iff]
      exact .directorySearch hspells hoptions hmapping hcriteria

end QueryCriteria.CommandLine
