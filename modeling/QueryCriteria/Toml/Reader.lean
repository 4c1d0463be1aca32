import QueryCriteria.Toml.Scalar
import QueryCriteria.Toml.Text
import QueryCriteria.Toml.Tree
/-!
# Reading TOML

A document is a list of lines, each a header or a value for a key, and the table they define. A
value may be nested 79 levels deep, and a key may have 79 parts.
-/

namespace QueryCriteria.Toml

/-! ## Space between tokens -/

/-- Drops spaces and tabs. -/
def skipSpace (cs : List Char) : List Char := cs.dropWhile fun c => c = ' ' || c = '\t'

/-- Drops a comment up to the end of its line. -/
def skipComment : List Char → List Char
  | '#' :: rest => rest.dropWhile isPlain
  | cs => cs

/-- Reads a line break. -/
def readBreak : List Char → Option (List Char)
  | '\n' :: rest => some rest
  | '\r' :: '\n' :: rest => some rest
  | _ => none

/-- Reads the end of a line: space, a comment, then a line break or the end of the text. -/
def readLineEnd (cs : List Char) : Option (List Char) :=
  match skipComment (skipSpace cs) with
  | [] => some []
  | rest => readBreak rest

/-- Drops space, comments and line breaks inside an array. -/
def skipLines : Nat → List Char → List Char
  | 0, cs => cs
  | fuel + 1, cs =>
    match readBreak (skipComment (skipSpace cs)) with
    | some rest => skipLines fuel rest
    | none => skipSpace cs

/-! ## Keys -/

/-- How many parts a key may not have, and how deep a value may not be nested. -/
def limit : Nat := 80

/-- Whether a character may stand in a key without quotes. -/
def isBare (c : Char) : Bool := c.isAlphanum || c = '_' || c = '-'

/-- Reads one part of a key. -/
def readKeyPart : List Char → Option (String × List Char)
  | '\x22' :: rest => (readBasic rest).map fun (cs, rest) => (String.ofList cs, rest)
  | '\x27' :: rest => (readLiteral rest).map fun (cs, rest) => (String.ofList cs, rest)
  | cs =>
    if (cs.takeWhile isBare).isEmpty then none
    else some (String.ofList (cs.takeWhile isBare), cs.dropWhile isBare)

/-- Reads the parts of a key with dots between them. -/
def readKeyParts : Nat → List Char → Option (List String × List Char)
  | 0, _ => none
  | fuel + 1, cs => do
    let (part, rest) ← readKeyPart (skipSpace cs)
    match skipSpace rest with
    | '.' :: rest =>
      let (parts, rest) ← readKeyParts fuel rest
      return (part :: parts, rest)
    | rest => return ([part], rest)

/-- Reads a key, of fewer parts than the limit. -/
def readKey (cs : List Char) : Option (List String × List Char) := readKeyParts (limit - 1) cs

/-! ## Values -/

mutual
/-- Reads a value that has room for so many levels of nesting; the fuel bounds how many values and
items are entered. -/
def readValue : Nat → Nat → List Char → Option (Toml × List Char)
  | 0, _, _ => none
  | fuel + 1, room, cs =>
    match cs with
    | '\x22' :: _ | '\x27' :: _ =>
      (readString? cs).map fun (text, rest) => (.string (String.ofList text), rest)
    | '[' :: rest =>
      match room with
      | 0 => none
      | room + 1 => (readItems fuel room rest).map fun (items, rest) => (.array items, rest)
    | '\x7b' :: rest =>
      match room with
      | 0 => none
      | room + 1 =>
        match skipSpace rest with
        | '\x7d' :: rest => some (.table [], rest)
        | rest => do
          let (pairs, rest) ← readPairs fuel room rest
          let value ← ofPairs? pairs
          return (value, rest)
    | _ => readScalar cs

/-- Reads the items of an array through its closing bracket; a comma may follow the last. -/
def readItems : Nat → Nat → List Char → Option (List Toml × List Char)
  | 0, _, _ => none
  | fuel + 1, room, cs =>
    match skipLines cs.length cs with
    | ']' :: rest => some ([], rest)
    | rest => do
      let (item, rest) ← readValue fuel room rest
      match skipLines rest.length rest with
      | ']' :: rest => return ([item], rest)
      | ',' :: rest =>
        let (items, rest) ← readItems fuel room rest
        return (item :: items, rest)
      | _ => none

/-- Reads the pairs of an inline table that has some, through its closing brace. -/
def readPairs : Nat → Nat → List Char → Option ((List (List String × Toml)) × List Char)
  | 0, _, _ => none
  | fuel + 1, room, cs => do
    let (path, rest) ← readKey cs
    let (_, rest) ← readChar '=' rest
    let (value, rest) ← readValue fuel room (skipSpace rest)
    match skipSpace rest with
    | '\x7d' :: rest => return ([(path, value)], rest)
    | ',' :: rest =>
      let (pairs, rest) ← readPairs fuel room rest
      return ((path, value) :: pairs, rest)
    | _ => none
end

/-! ## Lines -/

/-- Reads a header or a value for a key. -/
def readLine (cs : List Char) : Option (Line × List Char) :=
  match cs with
  | '[' :: '[' :: rest => do
    let (path, rest) ← readKey rest
    let (_, rest) ← readChar ']' rest
    let (_, rest) ← readChar ']' rest
    return (.element path, rest)
  | '[' :: rest => do
    let (path, rest) ← readKey rest
    let (_, rest) ← readChar ']' rest
    return (.table path, rest)
  | _ => do
    let (path, rest) ← readKey cs
    let (_, rest) ← readChar '=' rest
    let (value, rest) ← readValue (2 * rest.length + 2) (limit - 1) (skipSpace rest)
    return (.value path value, rest)

/-- Reads the lines of a text; every line that is not empty takes a character at least. -/
def readLines : Nat → List Char → Option (List Line)
  | 0, _ => none
  | fuel + 1, cs =>
    match skipSpace cs with
    | [] => some []
    | '#' :: rest => readLineEnd ('#' :: rest) >>= readLines fuel
    | '\n' :: rest => readLines fuel rest
    | '\r' :: rest => readLineEnd ('\r' :: rest) >>= readLines fuel
    | cs => do
      let (line, rest) ← readLine cs
      let lines ← readLineEnd rest >>= readLines fuel
      return line :: lines

/-- Drops the mark that may stand in front of a text. -/
def dropMark : List Char → List Char
  | '\ufeff' :: rest => rest
  | cs => cs

/-- Reads a document. -/
def read? (text : String) : Option Toml :=
  let cs := dropMark text.toList
  readLines (cs.length + 1) cs >>= ofLines?

end QueryCriteria.Toml
