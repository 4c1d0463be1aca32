import QueryCriteria.DirectorySearch.Call
import QueryCriteria.DirectorySearch.Mapping.Toml
import QueryCriteria.EntityQuery.Call
import QueryCriteria.EntityQuery.Fetching
import QueryCriteria.Json.Printer
import QueryCriteria.Schema.Toml
/-!
# The command line

Compiles a criteria document against a schema or a directory mapping and prints the query as JSON.
What the command does is a function of its arguments, its environment and the files it can read.
-/

namespace QueryCriteria.CommandLine

/-- A query to compile, with the paths of the files that describe it. -/
inductive Command where
  | entityQuery (schema entity : String) (criteria : Option String)
    (strategy : Option FetchStrategy)
  | directorySearch (mapping : String) (criteria : Option String)
deriving Repr, DecidableEq

/-- What arguments ask for. -/
inductive Request where
  | compile (command : Command)
  | version
  | help
  | invalid
deriving Repr, DecidableEq

/-! ## Arguments -/

/-- An option given as one argument or two: its name, and its value when that is in the same
argument. -/
def splitOption? (argument : String) : Option (String × Option String) :=
  match argument.toList with
  | '-' :: '-' :: body =>
    let name := String.ofList (body.takeWhile (· != '='))
    match body.dropWhile (· != '=') with
    | [] => some (name, none)
    | _ :: value => some (name, some (String.ofList value))
  | _ => none

/-- Whether an argument may be the value of the option before it. -/
def isValue (argument : String) : Bool := argument = "-" || !argument.startsWith "-"

/-- Whether an option takes a value: a path must not be empty, and a strategy must be one that is
known. -/
def accepts (name value : String) : Bool :=
  match name with
  | "entity" => true
  | "fetch-strategy" => (FetchStrategy.read value).isOk
  | _ => !value.isEmpty

/-- Reads options with their values. Each option is given at most once; two dashes alone end the
options, and nothing else may follow. A call for help counts unless something before it is
invalid. -/
def readOptions (names : List String) (given : List (String × String)) :
    List String → Except Request (List (String × String))
  | [] => .ok given
  | ["--"] => .ok given
  | argument :: rest =>
    if argument = "--help" || argument.startsWith "-h" then .error .help
    else match splitOption? argument with
      | none => .error .invalid
      | some (name, value) =>
        if !names.contains name || given.any fun option => option.1 = name then .error .invalid
        else match value, rest with
          | some value, rest =>
            if accepts name value then readOptions names (given ++ [(name, value)]) rest
            else .error .invalid
          | none, value :: rest =>
            if isValue value && accepts name value then
              readOptions names (given ++ [(name, value)]) rest
            else .error .invalid
          | none, [] => .error .invalid

/-- The value of an option. -/
def valueOf? (name : String) (given : List (String × String)) : Option String :=
  (given.find? fun option => option.1 = name).map (·.2)

/-- A value that must be given. -/
def required (name : String) (given : List (String × String)) : Except Request String :=
  match valueOf? name given with
  | some value => .ok value
  | none => .error .invalid

/-- Reads the options of an entity query. -/
def readEntityQuery (arguments : List String) : Except Request Command := do
  let given ← readOptions ["schema", "entity", "criteria", "fetch-strategy"] [] arguments
  let schema ← required "schema" given
  let entity ← required "entity" given
  let strategy := valueOf? "fetch-strategy" given >>= fun word => (FetchStrategy.read word).toOption
  return .entityQuery schema entity (valueOf? "criteria" given) strategy

/-- Reads the options of a directory search. -/
def readDirectorySearch (arguments : List String) : Except Request Command := do
  let given ← readOptions ["mapping", "criteria"] [] arguments
  let mapping ← required "mapping" given
  return .directorySearch mapping (valueOf? "criteria" given)

/-- A command that was read, as a request. -/
def requestOf : Except Request Command → Request
  | .ok command => .compile command
  | .error request => request

/-- What arguments ask for. -/
def request : List String → Request
  | "relational" :: arguments => requestOf (readEntityQuery arguments)
  | "directory" :: arguments => requestOf (readDirectorySearch arguments)
  | ["help"] => .help
  | ["help", topic] => if topic ∈ ["relational", "directory", "help"] then .help else .invalid
  | "--help" :: _ => .help
  | "--version" :: _ => .version
  | argument :: _ =>
    if argument.startsWith "-h" then .help
    else if argument.startsWith "-V" then .version
    else .invalid
  | [] => .invalid

/-! ## Compiling -/

/-- Why a command fails. -/
inductive Failure where
  | settings (cause : Settings.Fault)
  | unreadable (what path : String)
  | malformed (path : String)
  | refused (cause : Fault)
deriving Repr, DecidableEq

/-- The message of a failure, without its cause unless it is the cause. -/
def Failure.message : Failure → String
  | .settings _ => "failed to load configuration"
  | .unreadable what path => "failed to read " ++ what ++ " " ++ path
  | .malformed path => "failed to load " ++ path
  | .refused cause => cause.message

/-- What a command can see: environment variables by name and texts of files by path. -/
structure World where
  environment : String → Option String
  files : String → Option String

/-- The text of a file. -/
def World.readFile (w : World) (what path : String) : Except Failure String :=
  match w.files path with
  | some text => .ok text
  | none => .error (.unreadable what path)

/-- Loads a schema. -/
def World.loadSchema (w : World) (path : String) : Except Failure Schema := do
  let text ← w.readFile "schema" path
  (Schema.read text).mapError fun _ => .malformed path

/-- Loads a directory mapping. -/
def World.loadMapping (w : World) (path : String) : Except Failure DirectorySearch.Mapping := do
  let text ← w.readFile "directory mapping" path
  match DirectorySearch.Mapping.read? text with
  | some mapping => .ok mapping
  | none => .error (.malformed path)

/-- Loads a criteria document; without a path there are no criteria. -/
def World.loadCriteria (w : World) : Option String → Except Failure (Option CriteriaSet)
  | none => .ok none
  | some path => do
    let text ← w.readFile "criteria" path
    match CriteriaSet.read? text with
    | some set => .ok (some set)
    | none => .error (.malformed path)

/-- The settings of the environment, with the strategy that is given. The environment is looked at
even so. -/
def World.settings (w : World) (strategy : Option FetchStrategy) : Except Failure Settings := do
  let settings ← (Settings.ofEnvironment w.environment).mapError .settings
  return { settings with strategy := strategy.getD settings.strategy }

/-- Compiles an entity query. -/
def compileEntityQuery (w : World) (schema entity : String) (criteria : Option String)
    (strategy : Option FetchStrategy) : Except Failure EntityQuery := do
  let settings ← w.settings strategy
  let schema ← w.loadSchema schema
  let draft ← (EntityQuery.Draft.create entity schema settings).mapError .refused
  let draft ← match ← w.loadCriteria criteria with
    | none => .ok draft
    | some set => (draft.apply set).mapError .refused
  draft.compile.mapError .refused

/-- Compiles a directory search. -/
def compileDirectorySearch (w : World) (mapping : String) (criteria : Option String) :
    Except Failure DirectorySearch := do
  let mapping ← w.loadMapping mapping
  let draft ← (DirectorySearch.Draft.create mapping).mapError .refused
  let draft ← match ← w.loadCriteria criteria with
    | none => .ok draft
    | some set => (draft.apply set).mapError .refused
  draft.compile.mapError .refused

/-- The JSON tree of the query that a command compiles. -/
def Command.run (w : World) : Command → Except Failure Json
  | .entityQuery schema entity criteria strategy =>
    (compileEntityQuery w schema entity criteria strategy).map EntityQuery.toJson
  | .directorySearch mapping criteria =>
    (compileDirectorySearch w mapping criteria).map DirectorySearch.toJson

/-! ## Outcomes -/

/-- How a run of the program ends: its exit code, what it prints, and the error it reports. -/
structure Outcome where
  exit : UInt32
  output : String
  error : Option String
deriving Repr, DecidableEq

/-- The name and version of the program. -/
def versionLine : String := "sift-criteria 0.2.1-devel"

/-- The arguments that the program takes. -/
def usage : String :=
  "relational --schema FILE --entity NAME [--criteria FILE] [--fetch-strategy STRATEGY]\n" ++
    "directory --mapping FILE [--criteria FILE]"

/-- The outcome of a command. -/
def outcomeOf : Except Failure Json → Outcome
  | .ok j => ⟨0, j.pretty ++ "\n", none⟩
  | .error failure => ⟨1, "", some ("Error: " ++ failure.message)⟩

/-- The outcome of a run with the given arguments. -/
def outcome (w : World) (arguments : List String) : Outcome :=
  match request arguments with
  | .compile command => outcomeOf (command.run w)
  | .version => ⟨0, versionLine ++ "\n", none⟩
  | .help => ⟨0, usage ++ "\n", none⟩
  | .invalid => ⟨2, "", some usage⟩

/-- The files that a command may read. -/
def Command.paths : Command → List String
  | .entityQuery schema _ criteria _ => schema :: criteria.toList
  | .directorySearch mapping criteria => mapping :: criteria.toList

/-- The files that a run with the given arguments may read. -/
def paths (arguments : List String) : List String :=
  match request arguments with
  | .compile command => command.paths
  | _ => []

end QueryCriteria.CommandLine
