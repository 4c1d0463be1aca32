import QueryCriteria.Json.Basic
/-!
# Writing JSON

Two layouts of one tree: compact, and indented by two spaces a level with a line for each item.
In both, an empty array or object is written without a space, and strings escape the quote, the
backslash and the controls below the space, and nothing else.
-/

namespace QueryCriteria.Json

/-- A control without a short escape, by its number in four digits. -/
def escapeByNumber (c : Char) : List Char :=
  let n := c.toNat
  ['\\', 'u', '0', '0', Nat.digitChar (n / 16), Nat.digitChar (n % 16)]

/-- One character inside a string. -/
def escapeChar (c : Char) : List Char :=
  if c = '\x22' then ['\\', '\x22']
  else if c = '\\' then ['\\', '\\']
  else if c = '\x08' then ['\\', 'b']
  else if c = '\x0c' then ['\\', 'f']
  else if c = '\n' then ['\\', 'n']
  else if c = '\r' then ['\\', 'r']
  else if c = '\t' then ['\\', 't']
  else if c.toNat < 0x20 then escapeByNumber c
  else [c]

/-- A string with its quotes. -/
def stringChars (s : String) : List Char :=
  '\x22' :: s.toList.flatMap escapeChar ++ ['\x22']

/-- The text of a tree without items. -/
def leafChars : Json → List Char
  | .null => "null".toList
  | .bool true => "true".toList
  | .bool false => "false".toList
  | .number n => n.chars
  | .string s => stringChars s
  | .unpaired => "\"\\ud800\"".toList
  | .array _ => ['[', ']']
  | .object _ => ['\x7b', '\x7d']

mutual
/-- The compact text of a tree. -/
def compactChars : Json → List Char
  | .array items => '[' :: compactItems items ++ [']']
  | .object members => '\x7b' :: compactMembers members ++ ['\x7d']
  | leaf => leafChars leaf

/-- Items with commas between them. -/
def compactItems : List Json → List Char
  | [] => []
  | [item] => item.compactChars
  | item :: items => item.compactChars ++ ',' :: compactItems items

/-- Members with commas between them. -/
def compactMembers : List (String × Json) → List Char
  | [] => []
  | [(name, item)] => stringChars name ++ ':' :: item.compactChars
  | (name, item) :: members =>
    stringChars name ++ ':' :: item.compactChars ++ ',' :: compactMembers members
end

/-- The start of a line at an indentation level. -/
def newline (level : Nat) : List Char := '\n' :: List.replicate (2 * level) ' '

mutual
/-- The indented text of a tree that begins at a level. -/
def prettyChars (level : Nat) : Json → List Char
  | .array (item :: items) =>
    '[' :: prettyItems (level + 1) (item :: items) ++ newline level ++ [']']
  | .object (member :: members) =>
    '\x7b' :: prettyMembers (level + 1) (member :: members) ++ newline level ++ ['\x7d']
  | leaf => leafChars leaf

/-- Items on a line each, with commas between them. -/
def prettyItems (level : Nat) : List Json → List Char
  | [] => []
  | [item] => newline level ++ item.prettyChars level
  | item :: items => newline level ++ item.prettyChars level ++ ',' :: prettyItems level items

/-- Members on a line each, with commas between them. -/
def prettyMembers (level : Nat) : List (String × Json) → List Char
  | [] => []
  | [(name, item)] => newline level ++ stringChars name ++ ':' :: ' ' :: item.prettyChars level
  | (name, item) :: members =>
    newline level ++ stringChars name ++ ':' :: ' ' :: item.prettyChars level ++
      ',' :: prettyMembers level members
end

/-- The compact text. -/
def compact (j : Json) : String := String.ofList j.compactChars

/-- The indented text. -/
def pretty (j : Json) : String := String.ofList (j.prettyChars 0)

end QueryCriteria.Json
