import QueryCriteria.Json.Basic
/-!
# Reading JSON

The strict grammar: no comments, no trailing commas, no leading zeros, nothing but white space
around the one value. Nesting is not limited and numbers are not ranged here: what may be passed
over has to be well formed and no more.
-/

namespace QueryCriteria.Json

/-! ## Strings -/

/-- The value of a hexadecimal digit. -/
def hexDigit? (c : Char) : Option Nat :=
  if '0' ≤ c ∧ c ≤ '9' then some (c.toNat - '0'.toNat)
  else if 'a' ≤ c ∧ c ≤ 'f' then some (c.toNat - 'a'.toNat + 10)
  else if 'A' ≤ c ∧ c ≤ 'F' then some (c.toNat - 'A'.toNat + 10)
  else none

/-- The number that hexadecimal digits spell. -/
def hexNumber? (cs : List Char) : Option Nat :=
  cs.foldlM (fun n c => (hexDigit? c).map (16 * n + ·)) 0

/-- The character that a letter stands for after a backslash. -/
def shortEscape? (c : Char) : Option Char :=
  if c = '\x22' ∨ c = '\\' ∨ c = '/' then some c
  else if c = 'b' then some '\x08'
  else if c = 'f' then some '\x0c'
  else if c = 'n' then some '\n'
  else if c = 'r' then some '\r'
  else if c = 't' then some '\t'
  else none

/-- Reads a string up to its closing quote, as code points: a character's own, or the number that
an escape gives, which may be a surrogate's. -/
def readPoints : List Char → Option (List Nat × List Char)
  | [] => none
  | '\x22' :: rest => some ([], rest)
  | '\\' :: 'u' :: a :: b :: c :: d :: rest => do
    let point ← hexNumber? [a, b, c, d]
    let (points, rest) ← readPoints rest
    return (point :: points, rest)
  | '\\' :: c :: rest => do
    let escaped ← shortEscape? c
    let (points, rest) ← readPoints rest
    return (escaped.toNat :: points, rest)
  | c :: rest => do
    guard (c != '\\' && 0x20 ≤ c.toNat)
    let (points, rest) ← readPoints rest
    return (c.toNat :: points, rest)

/-- Whether a code point is the first half of a surrogate pair. -/
def isHighSurrogate (n : Nat) : Bool := 0xd800 ≤ n && n < 0xdc00

/-- Whether a code point is the second half of a surrogate pair. -/
def isLowSurrogate (n : Nat) : Bool := 0xdc00 ≤ n && n < 0xe000

/-- The text that code points denote: each pair of surrogates is one character, and a surrogate
without its partner is none. -/
def joinPairs : List Nat → Option (List Char)
  | [] => some []
  | high :: low :: rest =>
    if isHighSurrogate high then
      if isLowSurrogate low then
        (joinPairs rest).map (Char.ofNat (0x10000 + (high - 0xd800) * 0x400 + (low - 0xdc00)) :: ·)
      else none
    else if isLowSurrogate high then none
    else (joinPairs (low :: rest)).map (Char.ofNat high :: ·)
  | [point] =>
    if isHighSurrogate point || isLowSurrogate point then none else some [Char.ofNat point]

/-- Reads a string behind its opening quote; `none` in the first place when it has a lone
surrogate. -/
def readString (cs : List Char) : Option (Option String × List Char) :=
  (readPoints cs).map fun (points, rest) => ((joinPairs points).map String.ofList, rest)

/-! ## Numbers -/

/-- Splits off the digits at the front. -/
def spanDigits (cs : List Char) : List Char × List Char :=
  (cs.takeWhile Char.isDigit, cs.dropWhile Char.isDigit)

/-- Reads the digits before the point: a lone zero, or digits that start with none. -/
def readWhole (cs : List Char) : Option (List Char × List Char) :=
  match spanDigits cs with
  | ([], _) => none
  | ('0' :: _ :: _, _) => none
  | found => some found

/-- Reads a point and the digits behind it, if there is a point. -/
def readFraction : List Char → Option (List Char × List Char)
  | '.' :: rest =>
    match spanDigits rest with
    | ([], _) => none
    | found => some found
  | cs => some ([], cs)

/-- Reads the digits of an exponent. -/
def readExponentDigits (negative : Bool) (cs : List Char) : Option (Option Int × List Char) :=
  match spanDigits cs with
  | ([], _) => none
  | (digits, rest) =>
    let n : Int := Decimal.ofDigits digits
    some (some (if negative then -n else n), rest)

/-- Reads an exponent, if there is one. -/
def readExponent : List Char → Option (Option Int × List Char)
  | c :: rest =>
    if c = 'e' ∨ c = 'E' then
      match rest with
      | '-' :: digits => readExponentDigits true digits
      | '+' :: digits => readExponentDigits false digits
      | digits => readExponentDigits false digits
    else some (none, c :: rest)
  | [] => some (none, [])

/-- Reads a number without its sign. -/
def readUnsigned (negative : Bool) (cs : List Char) : Option (Number × List Char) := do
  let (whole, rest) ← readWhole cs
  let (fraction, rest) ← readFraction rest
  let (exponent, rest) ← readExponent rest
  return (⟨negative, whole, fraction, exponent⟩, rest)

/-- Reads a number. -/
def readNumber : List Char → Option (Number × List Char)
  | '-' :: rest => readUnsigned true rest
  | cs => readUnsigned false cs

/-! ## Values -/

/-- Whether a character may stand between tokens. -/
def isSpace (c : Char) : Bool := c = ' ' || c = '\t' || c = '\n' || c = '\r'

/-- Drops the white space at the front. -/
def skipSpace (cs : List Char) : List Char := cs.dropWhile isSpace

/-- The members of an object, unless a name has a lone surrogate. -/
def ofMembers (members : List (Option String × Json)) : Json :=
  match members.mapM fun member => member.1.map (·, member.2) with
  | some members => .object members
  | none => .unpaired

mutual
/-- Reads one value; the fuel bounds how many values, items and members are entered. -/
def readValue : Nat → List Char → Option (Json × List Char)
  | 0, _ => none
  | fuel + 1, cs =>
    match skipSpace cs with
    | 'n' :: 'u' :: 'l' :: 'l' :: rest => some (.null, rest)
    | 't' :: 'r' :: 'u' :: 'e' :: rest => some (.bool true, rest)
    | 'f' :: 'a' :: 'l' :: 's' :: 'e' :: rest => some (.bool false, rest)
    | '\x22' :: rest => (readString rest).map fun (s, rest) => (s.elim .unpaired .string, rest)
    | '[' :: rest =>
      match skipSpace rest with
      | ']' :: rest => some (.array [], rest)
      | rest => (readItems fuel rest).map fun (items, rest) => (.array items, rest)
    | '\x7b' :: rest =>
      match skipSpace rest with
      | '\x7d' :: rest => some (.object [], rest)
      | rest => (readMembers fuel rest).map fun (members, rest) => (ofMembers members, rest)
    | rest => (readNumber rest).map fun (n, rest) => (.number n, rest)

/-- Reads the items of an array that has some, through its closing bracket. -/
def readItems : Nat → List Char → Option (List Json × List Char)
  | 0, _ => none
  | fuel + 1, cs => do
    let (item, rest) ← readValue fuel cs
    match skipSpace rest with
    | ']' :: rest => return ([item], rest)
    | ',' :: rest =>
      let (items, rest) ← readItems fuel rest
      return (item :: items, rest)
    | _ => none

/-- Reads the members of an object that has some, through its closing brace. -/
def readMembers : Nat → List Char → Option (List (Option String × Json) × List Char)
  | 0, _ => none
  | fuel + 1, cs =>
    match skipSpace cs with
    | '\x22' :: rest => do
      let (name, rest) ← readString rest
      match skipSpace rest with
      | ':' :: rest =>
        let (item, rest) ← readValue fuel rest
        match skipSpace rest with
        | '\x7d' :: rest => return ([(name, item)], rest)
        | ',' :: rest =>
          let (members, rest) ← readMembers fuel rest
          return ((name, item) :: members, rest)
        | _ => none
      | _ => none
    | _ => none
end

/-- Reads a text that is one value. Every value, item and member takes a character at least, and
entering an item enters a value too, so twice the length is fuel enough. -/
def read? (text : String) : Option Json :=
  let cs := text.toList
  match readValue (2 * cs.length + 2) cs with
  | some (j, rest) => if (skipSpace rest).isEmpty then some j else none
  | none => none

end QueryCriteria.Json
