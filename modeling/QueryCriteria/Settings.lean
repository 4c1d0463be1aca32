import QueryCriteria.Fault
import QueryCriteria.Text.Blank
/-!
# Settings

How related entities are fetched and how far relations are followed, as a caller or the
environment sets it. A value that cannot be read is reported with the variable it came from, the
strategy before the depth.
-/

namespace QueryCriteria

/-- How related entities are fetched. -/
inductive FetchStrategy where
  /-- By a join for each planned relation. -/
  | joinFetch
  /-- By a hint for each planned relation, beside the query. -/
  | fetchHints
  /-- Not at all. -/
  | disabled
deriving Repr, DecidableEq, Inhabited

namespace FetchStrategy

/-- The word for a strategy. -/
def word : FetchStrategy → String
  | .joinFetch => "join_fetch"
  | .fetchHints => "fetch_hints"
  | .disabled => "disabled"

/-- Reads a strategy; capitals and white space around the word do not matter. -/
def read (text : String) : Except Fault FetchStrategy :=
  match Text.lowerAscii (Text.trim text) with
  | "join_fetch" => .ok .joinFetch
  | "fetch_hints" => .ok .fetchHints
  | "disabled" => .ok .disabled
  | "none" => .ok .disabled
  | word => .error (.unknownStrategy word)

end FetchStrategy

/-- Settings of entity queries. -/
structure Settings where
  strategy : FetchStrategy := .joinFetch
  maxDepth : UInt8 := 3
deriving Repr, DecidableEq

namespace Settings

/-- Why a text is no number of eight bits. -/
inductive DepthFault where
  | empty
  | invalidDigit
  | tooLarge
deriving Repr, DecidableEq

/-- The message of a depth fault. -/
def DepthFault.message : DepthFault → String
  | .empty => "cannot parse integer from empty string"
  | .invalidDigit => "invalid digit found in string"
  | .tooLarge => "number too large to fit in target type"

/-- Reads the digits behind those that made `value`; what is met first, a character that is no
digit or a value beyond 255, decides the fault. -/
def readDigits (value : Nat) : List Char → Except DepthFault UInt8
  | [] => .ok (UInt8.ofNat value)
  | c :: rest =>
    if c.isDigit then
      let next := 10 * value + (c.toNat - '0'.toNat)
      if next < 256 then readDigits next rest else .error .tooLarge
    else .error .invalidDigit

/-- Reads a depth, with an optional plus sign and white space around it. -/
def readDepth (text : String) : Except DepthFault UInt8 :=
  match Text.trimChars text.toList with
  | [] => .error .empty
  | ['+'] => .error .invalidDigit
  | '+' :: digits => readDigits 0 digits
  | digits => readDigits 0 digits

/-- Why an environment gives no settings. -/
inductive Fault where
  | strategy (text : String) (cause : QueryCriteria.Fault)
  | depth (text : String) (cause : DepthFault)
deriving Repr, DecidableEq

/-- The variable that holds the strategy. -/
def strategyVariable : String := "SIFT_FETCH_STRATEGY"

/-- The variable that holds the depth. -/
def depthVariable : String := "SIFT_MAX_FETCH_DEPTH"

/-- The message of a fault: what the variable must be, what it is, and the cause. -/
def Fault.message : Fault → String
  | .strategy text cause =>
    strategyVariable ++ " must be join_fetch, fetch_hints or disabled, got " ++ Text.quote text ++
      ": " ++ cause.message
  | .depth text cause =>
    depthVariable ++ " must be a valid u8, got " ++ Text.quote text ++ ": " ++ cause.message

/-- The strategy of an environment. -/
def strategyOf (lookup : String → Option String) : Except Fault FetchStrategy :=
  match lookup strategyVariable with
  | none => .ok ({} : Settings).strategy
  | some text => (FetchStrategy.read text).mapError (.strategy text)

/-- The depth of an environment. -/
def depthOf (lookup : String → Option String) : Except Fault UInt8 :=
  match lookup depthVariable with
  | none => .ok ({} : Settings).maxDepth
  | some text => (readDepth text).mapError (.depth text)

/-- The settings of an environment; a variable that is not set leaves the default. -/
def ofEnvironment (lookup : String → Option String) : Except Fault Settings := do
  let strategy ← strategyOf lookup
  let maxDepth ← depthOf lookup
  return { strategy, maxDepth }

end Settings

end QueryCriteria
