import QueryCriteria.Proofs.CommandLine.Arguments
import QueryCriteria.Proofs.CommandLine.Trees
import QueryCriteria.Proofs.Settings
/-!
# Runs of the command line

A run compiles what its arguments spell, stage by stage: the first stage that fails is reported,
and the query of a run in which none does is printed (`runsStages`). How the tree of a query is
laid out is told by its compact text.
-/

namespace QueryCriteria

namespace CommandLine

/-! ## Stages -/

section
variable {α δ κ : Type} (w : World)

/-- Loads a file: it can be read, and its text denotes something. -/
inductive Loads (what path : String) (read? : String → Option α) : Except String α → Prop
  | unreadable (h : w.files path = none) :
    Loads what path read? (.error ("failed to read " ++ what ++ " " ++ path))
  | malformed {text : String} (htext : w.files path = some text) (h : read? text = none) :
    Loads what path read? (.error ("failed to load " ++ path))
  | loaded {text : String} {a : α} (htext : w.files path = some text) (h : read? text = some a) :
    Loads what path read? (.ok a)

/-- Loads a schema. -/
def LoadsSchema (path : String) : Except String Schema → Prop :=
  Loads w "schema" path fun text => (Schema.read text).toOption

/-- Loads a directory mapping. -/
def LoadsMapping (path : String) : Except String DirectorySearch.Mapping → Prop :=
  Loads w "directory mapping" path DirectorySearch.Mapping.read?

/-- Loads a criteria document. -/
def LoadsCriteria (path : String) : Except String CriteriaSet → Prop :=
  Loads w "criteria" path CriteriaSet.read?

/-- Begins an entity query: the settings of the environment, which must be right even where a
strategy is given, then the schema, then the query of an entity. -/
inductive BeginsEntityQuery (schema entity : String) (strategy : Option FetchStrategy) :
    Except String EntityQuery.Draft → Prop
  | settings {cause : Settings.Fault} (h : Settings.ofEnvironment w.environment = .error cause) :
    BeginsEntityQuery schema entity strategy (.error "failed to load configuration")
  | schema {settings : Settings} {message : String}
    (hsettings : Settings.ofEnvironment w.environment = .ok settings)
    (h : LoadsSchema w schema (.error message)) :
    BeginsEntityQuery schema entity strategy (.error message)
  | construction {settings : Settings} {s : Schema} {fault : Fault}
    (hsettings : Settings.ofEnvironment w.environment = .ok settings)
    (hschema : LoadsSchema w schema (.ok s))
    (h : EntityQuery.Draft.create entity s
      { settings with strategy := strategy.getD settings.strategy } = .error fault) :
    BeginsEntityQuery schema entity strategy (.error fault.message)
  | begun {settings : Settings} {s : Schema} {draft : EntityQuery.Draft}
    (hsettings : Settings.ofEnvironment w.environment = .ok settings)
    (hschema : LoadsSchema w schema (.ok s))
    (h : EntityQuery.Draft.create entity s
      { settings with strategy := strategy.getD settings.strategy } = .ok draft) :
    BeginsEntityQuery schema entity strategy (.ok draft)

/-- Begins a directory search: the mapping, then the search it describes. -/
inductive BeginsDirectorySearch (mapping : String) : Except String DirectorySearch.Draft → Prop
  | mapping {message : String} (h : LoadsMapping w mapping (.error message)) :
    BeginsDirectorySearch mapping (.error message)
  | construction {m : DirectorySearch.Mapping} {fault : Fault}
    (hmapping : LoadsMapping w mapping (.ok m))
    (h : DirectorySearch.Draft.create m = .error fault) :
    BeginsDirectorySearch mapping (.error fault.message)
  | begun {m : DirectorySearch.Mapping} {draft : DirectorySearch.Draft}
    (hmapping : LoadsMapping w mapping (.ok m)) (h : DirectorySearch.Draft.create m = .ok draft) :
    BeginsDirectorySearch mapping (.ok draft)

/-- Applies a criteria document to a draft, if there is one. -/
inductive Applies (apply : δ → CriteriaSet → Except Fault δ) (draft : δ) :
    Option String → Except String δ → Prop
  | bare : Applies apply draft none (.ok draft)
  | document {path message : String} (h : LoadsCriteria w path (.error message)) :
    Applies apply draft (some path) (.error message)
  | application {path : String} {set : CriteriaSet} {fault : Fault}
    (hset : LoadsCriteria w path (.ok set)) (h : apply draft set = .error fault) :
    Applies apply draft (some path) (.error fault.message)
  | applied {path : String} {set : CriteriaSet} {draft' : δ}
    (hset : LoadsCriteria w path (.ok set)) (h : apply draft set = .ok draft') :
    Applies apply draft (some path) (.ok draft')

/-- Applies criteria to what has been begun, compiles it and writes the query as a tree. -/
inductive Finishes (begins : Except String δ → Prop) (apply : δ → CriteriaSet → Except Fault δ)
    (compile : δ → Except Fault κ) (written : κ → Json → Prop) (criteria : Option String) :
    Except String Json → Prop
  | beginning {message : String} (h : begins (.error message)) :
    Finishes begins apply compile written criteria (.error message)
  | criteria {draft : δ} {message : String} (hbegun : begins (.ok draft))
    (h : Applies w apply draft criteria (.error message)) :
    Finishes begins apply compile written criteria (.error message)
  | compilation {draft draft' : δ} {fault : Fault} (hbegun : begins (.ok draft))
    (happlied : Applies w apply draft criteria (.ok draft')) (h : compile draft' = .error fault) :
    Finishes begins apply compile written criteria (.error fault.message)
  | compiled {draft draft' : δ} {query : κ} {tree : Json} (hbegun : begins (.ok draft))
    (happlied : Applies w apply draft criteria (.ok draft')) (h : compile draft' = .ok query)
    (htree : written query tree) : Finishes begins apply compile written criteria (.ok tree)

/-- The result of a command: the tree of the query, or the message of the first stage that fails. -/
inductive Compiles : Command → Except String Json → Prop
  | entityQuery {schema entity : String} {criteria : Option String}
    {strategy : Option FetchStrategy} {result : Except String Json}
    (h : Finishes w (BeginsEntityQuery w schema entity strategy) EntityQuery.Draft.apply
      EntityQuery.Draft.compile EntityQuery.WrittenAs criteria result) :
    Compiles (.entityQuery schema entity criteria strategy) result
  | directorySearch {mapping : String} {criteria : Option String} {result : Except String Json}
    (h : Finishes w (BeginsDirectorySearch w mapping) DirectorySearch.Draft.apply
      DirectorySearch.Draft.compile DirectorySearch.WrittenAs criteria result) :
    Compiles (.directorySearch mapping criteria) result

end

/-! ## Stages as they are run -/

/-- Loads a file, whatever it holds. -/
def World.load {α : Type} (w : World) (what path : String) (read? : String → Option α) :
    Except Failure α := do
  let text ← w.readFile what path
  (read? text).elim (.error (.malformed path)) .ok

/-- Begins an entity query, up to its criteria. -/
def World.beginEntityQuery (w : World) (schema entity : String) (strategy : Option FetchStrategy) :
    Except Failure EntityQuery.Draft := do
  let settings ← w.settings strategy
  let schema ← w.loadSchema schema
  (EntityQuery.Draft.create entity schema settings).mapError .refused

/-- Begins a directory search, up to its criteria. -/
def World.beginDirectorySearch (w : World) (mapping : String) :
    Except Failure DirectorySearch.Draft := do
  let mapping ← w.loadMapping mapping
  (DirectorySearch.Draft.create mapping).mapError .refused

/-- Applies a criteria document to a draft of either kind, if there is one. -/
def World.applyTo {δ : Type} (w : World) (apply : δ → CriteriaSet → Except Fault δ) (draft : δ)
    (criteria : Option String) : Except Failure δ := do
  match ← w.loadCriteria criteria with
  | none => .ok draft
  | some set => (apply draft set).mapError .refused

/-- What a call reports: its result, or the message of its failure. -/
def report {α : Type} (x : Except Failure α) : Except String α := x.mapError Failure.message

section
variable {α δ κ : Type} {w : World} {path : String}

theorem report_ok (a : α) : report (.ok a) = .ok a := rfl

theorem report_bind (x : Except Failure α) (f : α → Except Failure κ) :
    report (x >>= f) = report x >>= fun a => report (f a) := by
  cases x <;> rfl

theorem loads_iff {what : String} {read? : String → Option α} {result : Except String α} :
    Loads w what path read? result ↔ result = report (w.load what path read?) := by
  unfold World.load World.readFile
  constructor
  · intro h
    cases h with
    | unreadable h => rw [h]; rfl
    | malformed htext h => rw [htext, ok_bind, h]; rfl
    | loaded htext h => rw [htext, ok_bind, h]; rfl
  · rintro rfl
    cases htext : w.files path with
    | none => exact .unreadable htext
    | some text =>
      cases h : read? text with
      | none => rw [ok_bind, h]; exact .malformed htext h
      | some a => rw [ok_bind, h]; exact .loaded htext h

theorem report_refused (x : Except Fault α) :
    report (x.mapError .refused) = x.mapError Fault.message := by
  cases x <;> rfl

theorem loadsSchema_iff {result : Except String Schema} :
    LoadsSchema w path result ↔ result = report (w.loadSchema path) := by
  have hload : w.loadSchema path = w.load "schema" path fun text => (Schema.read text).toOption := by
    unfold World.loadSchema World.load
    congr
    funext text
    dsimp only
    cases Schema.read text <;> rfl
  rw [LoadsSchema, loads_iff, hload]

theorem loadsMapping_iff {result : Except String DirectorySearch.Mapping} :
    LoadsMapping w path result ↔ result = report (w.loadMapping path) := by
  have hload : w.loadMapping path =
      w.load "directory mapping" path DirectorySearch.Mapping.read? := by
    unfold World.loadMapping World.load
    congr
    funext text
    cases DirectorySearch.Mapping.read? text <;> rfl
  rw [LoadsMapping, loads_iff, hload]

theorem loadCriteria_some (w : World) (path : String) : w.loadCriteria (some path) =
    w.load "criteria" path CriteriaSet.read? >>= fun set => .ok (some set) := by
  simp only [World.loadCriteria, World.load, bind_assoc]
  congr
  funext text
  cases CriteriaSet.read? text <;> rfl

theorem settings_of_error {cause : Settings.Fault} (strategy : Option FetchStrategy)
    (h : Settings.ofEnvironment w.environment = .error cause) :
    w.settings strategy = .error (.settings cause) := by
  rw [World.settings, h]
  rfl

theorem settings_of_ok {settings : Settings} (strategy : Option FetchStrategy)
    (h : Settings.ofEnvironment w.environment = .ok settings) : w.settings strategy =
      .ok { settings with strategy := strategy.getD settings.strategy } := by
  rw [World.settings, h]
  rfl

theorem beginsEntityQuery_iff {schema entity : String} {strategy : Option FetchStrategy}
    {result : Except String EntityQuery.Draft} :
    BeginsEntityQuery w schema entity strategy result ↔
      result = report (w.beginEntityQuery schema entity strategy) := by
  simp only [World.beginEntityQuery, report_bind, report_refused]
  constructor
  · intro h
    cases h with
    | settings h => rw [settings_of_error strategy h]; rfl
    | schema hsettings h =>
      rw [settings_of_ok strategy hsettings, report_ok, ok_bind, ← loadsSchema_iff.1 h]
      rfl
    | construction hsettings hschema h =>
      rw [settings_of_ok strategy hsettings, report_ok, ok_bind, ← loadsSchema_iff.1 hschema,
        ok_bind, h]
      rfl
    | begun hsettings hschema h =>
      rw [settings_of_ok strategy hsettings, report_ok, ok_bind, ← loadsSchema_iff.1 hschema,
        ok_bind, h]
      rfl
  · rintro rfl
    cases hsettings : Settings.ofEnvironment w.environment with
    | error cause =>
      rw [settings_of_error strategy hsettings]
      exact .settings hsettings
    | ok settings =>
      rw [settings_of_ok strategy hsettings, report_ok, ok_bind]
      cases hschema : report (w.loadSchema schema) with
      | error message => exact .schema hsettings (loadsSchema_iff.2 hschema.symm)
      | ok s =>
        rw [ok_bind]
        cases h : EntityQuery.Draft.create entity s
          { settings with strategy := strategy.getD settings.strategy } with
        | error fault => exact .construction hsettings (loadsSchema_iff.2 hschema.symm) h
        | ok draft => exact .begun hsettings (loadsSchema_iff.2 hschema.symm) h

theorem beginsDirectorySearch_iff {mapping : String}
    {result : Except String DirectorySearch.Draft} :
    BeginsDirectorySearch w mapping result ↔ result = report (w.beginDirectorySearch mapping) := by
  simp only [World.beginDirectorySearch, report_bind, report_refused]
  constructor
  · intro h
    cases h with
    | mapping h => rw [← loadsMapping_iff.1 h]; rfl
    | construction hmapping h => rw [← loadsMapping_iff.1 hmapping, ok_bind, h]; rfl
    | begun hmapping h => rw [← loadsMapping_iff.1 hmapping, ok_bind, h]; rfl
  · rintro rfl
    cases hmapping : report (w.loadMapping mapping) with
    | error message => exact .mapping (loadsMapping_iff.2 hmapping.symm)
    | ok m =>
      rw [ok_bind]
      cases h : DirectorySearch.Draft.create m with
      | error fault => exact .construction (loadsMapping_iff.2 hmapping.symm) h
      | ok draft => exact .begun (loadsMapping_iff.2 hmapping.symm) h

section
variable {apply : δ → CriteriaSet → Except Fault δ} {compile : δ → Except Fault κ} {draft : δ}
  {criteria : Option String}

theorem applies_iff {result : Except String δ} :
    Applies w apply draft criteria result ↔ result = report (w.applyTo apply draft criteria) := by
  unfold World.applyTo
  cases criteria with
  | none =>
    constructor
    · rintro ⟨⟩
      rfl
    · rintro rfl
      exact .bare
  | some path =>
    rw [loadCriteria_some]
    simp only [report_bind, bind_assoc, ok_bind, report_refused]
    constructor
    · intro h
      cases h with
      | document h => rw [← loads_iff.1 h]; rfl
      | application hset h => rw [← loads_iff.1 hset, ok_bind, h]; rfl
      | applied hset h => rw [← loads_iff.1 hset, ok_bind, h]; rfl
    · rintro rfl
      cases hset : report (w.load "criteria" path CriteriaSet.read?) with
      | error message => exact .document (loads_iff.2 hset.symm)
      | ok set =>
        rw [ok_bind]
        cases h : apply draft set with
        | error fault => exact .application (loads_iff.2 hset.symm) h
        | ok draft' => exact .applied (loads_iff.2 hset.symm) h

theorem finishes_iff {begins : Except String δ → Prop} {start : Except Failure δ}
    {written : κ → Json → Prop} {toJson : κ → Json}
    (hbegins : ∀ begun, begins begun ↔ begun = report start)
    (hwritten : ∀ query tree, written query tree ↔ toJson query = tree)
    {result : Except String Json} :
    Finishes w begins apply compile written criteria result ↔ result = (report (do
      let draft ← start
      let draft ← w.applyTo apply draft criteria
      (compile draft).mapError .refused)).map toJson := by
  simp only [report_bind, report_refused]
  constructor
  · intro h
    cases h with
    | beginning h => rw [← (hbegins _).1 h]; rfl
    | criteria hbegun h => rw [← (hbegins _).1 hbegun, ok_bind, ← applies_iff.1 h]; rfl
    | compilation hbegun happlied h =>
      rw [← (hbegins _).1 hbegun, ok_bind, ← applies_iff.1 happlied, ok_bind, h]
      rfl
    | compiled hbegun happlied h htree =>
      rw [← (hbegins _).1 hbegun, ok_bind, ← applies_iff.1 happlied, ok_bind, h,
        ← (hwritten _ _).1 htree]
      rfl
  · rintro rfl
    cases hbegun : report start with
    | error message => exact .beginning ((hbegins _).2 hbegun.symm)
    | ok draft =>
      rw [ok_bind]
      cases happlied : report (w.applyTo apply draft criteria) with
      | error message => exact .criteria ((hbegins _).2 hbegun.symm) (applies_iff.2 happlied.symm)
      | ok draft' =>
        rw [ok_bind]
        cases h : compile draft' with
        | error fault =>
          exact .compilation ((hbegins _).2 hbegun.symm) (applies_iff.2 happlied.symm) h
        | ok query =>
          exact .compiled ((hbegins _).2 hbegun.symm) (applies_iff.2 happlied.symm) h
            ((hwritten _ _).2 rfl)

end

/-! ## Whole runs -/

theorem compileEntityQuery_eq (w : World) (schema entity : String) (criteria : Option String)
    (strategy : Option FetchStrategy) :
    compileEntityQuery w schema entity criteria strategy = (do
      let draft ← w.beginEntityQuery schema entity strategy
      let draft ← w.applyTo EntityQuery.Draft.apply draft criteria
      draft.compile.mapError .refused) := by
  -- The calls are the same; only their nesting differs.
  simp only [compileEntityQuery, World.beginEntityQuery, World.applyTo, bind_assoc]
  congr
  funext settings
  congr
  funext s
  congr
  funext draft
  congr
  funext set
  cases set <;> rfl

theorem compileDirectorySearch_eq (w : World) (mapping : String) (criteria : Option String) :
    compileDirectorySearch w mapping criteria = (do
      let draft ← w.beginDirectorySearch mapping
      let draft ← w.applyTo DirectorySearch.Draft.apply draft criteria
      draft.compile.mapError .refused) := by
  simp only [compileDirectorySearch, World.beginDirectorySearch, World.applyTo, bind_assoc]
  congr
  funext m
  congr
  funext draft
  congr
  funext set
  cases set <;> rfl

theorem report_map (x : Except Failure α) (f : α → κ) : report (x.map f) = (report x).map f := by
  cases x <;> rfl

variable {command : Command} {arguments : List String}

/-- The stages give what the command reports, and nothing else. -/
theorem compiles_iff {result : Except String Json} :
    Compiles w command result ↔ result = report (command.run w) := by
  constructor
  · intro h
    cases h with
    | entityQuery h =>
      rw [Command.run, report_map, compileEntityQuery_eq]
      exact (finishes_iff (fun _ => beginsEntityQuery_iff) EntityQuery.writtenAs_iff).1 h
    | directorySearch h =>
      rw [Command.run, report_map, compileDirectorySearch_eq]
      exact (finishes_iff (fun _ => beginsDirectorySearch_iff) DirectorySearch.writtenAs_iff).1 h
  · rintro rfl
    cases command with
    | entityQuery schema entity criteria strategy =>
      rw [Command.run, report_map, compileEntityQuery_eq]
      refine .entityQuery ?_
      exact (finishes_iff (fun _ => beginsEntityQuery_iff) EntityQuery.writtenAs_iff).2 rfl
    | directorySearch mapping criteria =>
      rw [Command.run, report_map, compileDirectorySearch_eq]
      refine .directorySearch ?_
      exact (finishes_iff (fun _ => beginsDirectorySearch_iff) DirectorySearch.writtenAs_iff).2 rfl

theorem solid_run {query : Json} (h : command.run w = .ok query) : query.Solid := by
  cases command with
  | entityQuery =>
    obtain ⟨q, -, rfl⟩ := map_eq_ok_iff.1 h
    exact q.solid_toJson
  | directorySearch =>
    obtain ⟨s, -, rfl⟩ := map_eq_ok_iff.1 h
    exact s.solid_toJson

theorem outcome_of_spelledBy (w : World) (h : command.SpelledBy arguments) :
    outcome w arguments = outcomeOf (command.run w) := by
  rw [outcome, request_eq_compile_iff.2 h]

/-- A run that compiles a command, told by the stages of the command. -/
structure RunsStages (w : World) (arguments : List String) (command : Command) : Prop where
  /-- The stages have one result. -/
  result : ∃! result, Compiles w command result
  /-- The run succeeds exactly when every stage does. -/
  succeeds : (outcome w arguments).exit = 0 ↔ ∃ query, Compiles w command (.ok query)
  /-- The query is printed with a line for each item. Without the white space outside its string
  literals this is the compact text of the query. -/
  printed : ∀ query, Compiles w command (.ok query) →
    outcome w arguments = ⟨0, query.pretty ++ "\n", none⟩ ∧
      Json.squeeze .outside (outcome w arguments).output.toList = query.compact.toList
  /-- The message of the first stage that fails is reported, and nothing is printed. -/
  failed : ∀ message, Compiles w command (.error message) →
    outcome w arguments = ⟨1, "", some ("Error: " ++ message)⟩
  /-- Wrong settings are reported whatever strategy is given. -/
  settings : ∀ schema entity criteria strategy cause,
    command = .entityQuery schema entity criteria strategy →
      Settings.ofEnvironment w.environment = .error cause →
        outcome w arguments = ⟨1, "", some "Error: failed to load configuration"⟩

/-- The arguments that are taken for a command are those that spell it, with its options in any
order, and a run with such arguments goes through the stages of the command. -/
theorem runsStages (w : World) (arguments : List String) (command : Command) :
    (request arguments = .compile command ↔ command.SpelledBy arguments) ∧
      (command.SpelledBy arguments → RunsStages w arguments command) := by
  refine ⟨request_eq_compile_iff, fun hspelled => ?_⟩
  have houtcome := outcome_of_spelledBy w hspelled
  have hok (query : Json) (h : Compiles w command (.ok query)) : command.run w = .ok query :=
    mapError_eq_ok_iff.1 (compiles_iff.1 h).symm
  have hfailed (message : String) (h : Compiles w command (.error message)) :
      outcome w arguments = ⟨1, "", some ("Error: " ++ message)⟩ := by
    obtain ⟨failure, hfailure, rfl⟩ := mapError_eq_error_iff.1 (compiles_iff.1 h).symm
    rw [houtcome, hfailure]
    rfl
  refine ⟨⟨_, compiles_iff.2 rfl, fun _ => compiles_iff.1⟩, ⟨?_, ?_⟩, ?_, hfailed, ?_⟩
  · intro hexit
    cases hrun : command.run w with
    | ok query => exact ⟨query, compiles_iff.2 (by rw [hrun]; rfl)⟩
    | error failure =>
      rw [houtcome, hrun] at hexit
      cases hexit
  · rintro ⟨query, hquery⟩
    rw [houtcome, hok query hquery]
    rfl
  · intro query hquery
    have hrun := hok query hquery
    rw [houtcome, hrun]
    exact ⟨rfl, (solid_run hrun).squeeze_pretty⟩
  · rintro schema entity criteria strategy cause rfl hsettings
    have hfirst : BeginsEntityQuery w schema entity strategy
        (.error "failed to load configuration") := .settings hsettings
    exact hfailed _ (.entityQuery (.beginning hfirst))

/-- Options in another order, with and without the sign for equality, spell a query. What is printed
is the query with the white space in its value; a depth that is wrong is reported in spite of the
strategy. -/
theorem runsStages_shuffled :
    let files (path : String) : Option String :=
      if path = "shop.toml" then some "[[entity]]\nname = \"shop.Order\"\n"
      else if path = "open.json" then
        some "\x7b\"restrictions\":[[\"title\",\"a \\\"b\\\" \x7b\",\"equal\"]]\x7d"
      else none
    let depth (name : String) := if name = "SIFT_MAX_FETCH_DEPTH" then some "far" else none
    let arguments := ["relational", "--criteria=open.json", "--entity", "Order",
      "--fetch-strategy", " None ", "--schema=shop.toml", "--"]
    let command : Command :=
      .entityQuery "shop.toml" "Order" (some "open.json") (some .disabled)
    let output := "\x7b\n  \"ql\": \"select order from Order order where order.title = :param1\",\n" ++
      "  \"parameters\": \x7b\n    \"param1\": \"a \\\"b\\\" \x7b\"\n  \x7d\n\x7d\n"
    command.SpelledBy arguments ∧ request arguments = .compile command ∧
      (∃ query, Compiles ⟨fun _ => none, files⟩ command (.ok query) ∧
        query.pretty ++ "\n" = output ∧
        Json.squeeze .outside output.toList = query.compact.toList) ∧
      outcome ⟨fun _ => none, files⟩ arguments = ⟨0, output, none⟩ ∧
      outcome ⟨depth, files⟩ arguments = ⟨1, "", some "Error: failed to load configuration"⟩ := by
  intro files depth arguments command output
  have hstrategy :
      (some " None ").map FetchStrategy.read = (some FetchStrategy.disabled).map Except.ok := by
    have hcore : (Text.trimChars " None ".toList).map Char.toLower = "none".toList := by decide
    exact congrArg some (FetchStrategy.read_eq_ok_iff.2 ⟨_, .none, hcore⟩)
  have hspelled : command.SpelledBy arguments := by
    refine .entityQuery (.joined "criteria" "open.json" (.apart "entity" (by decide)
      (.apart "fetch-strategy" (by decide) (.joined "schema" "shop.toml" .ended)))) ?_
      (by decide) (by decide) hstrategy
    decide
  have houtcome : outcome ⟨fun _ => none, files⟩ arguments = ⟨0, output, none⟩ := by
    rw [outcome_of_spelledBy _ hspelled]
    decide +kernel
  obtain ⟨hrequest, hruns⟩ := runsStages ⟨fun _ => none, files⟩ arguments command
  obtain ⟨query, hquery⟩ := (hruns hspelled).succeeds.1 (by rw [houtcome])
  obtain ⟨hprinted, hcompact⟩ := (hruns hspelled).printed query hquery
  rw [houtcome] at hprinted hcompact
  have hoverridden := (runsStages ⟨depth, files⟩ arguments command).2 hspelled
  exact ⟨hspelled, hrequest.2 hspelled,
    ⟨query, hquery, congrArg Outcome.output hprinted.symm, hcompact⟩, houtcome,
    hoverridden.settings _ _ _ _ (.depth "far" .invalidDigit) rfl rfl⟩

end

end CommandLine

end QueryCriteria
