import QueryCriteria.Json.Reader
/-!
# Strings in TOML

The four forms of strings: basic and literal, on one line or on several. Only basic strings have
escapes; a line break in a string of several lines is a line feed, however it is written.
-/

namespace QueryCriteria.Toml

/-- Whether a character may stand for itself in a comment or a literal string: a tab, or anything
but a control. -/
def isPlain (c : Char) : Bool := c = '\t' || (0x20 ≤ c.toNat && c.toNat != 0x7f)

/-- The character that eight or four hexadecimal digits stand for. -/
def escapedPoint? (digits : List Char) : Option Char := do
  let point ← Json.hexNumber? digits
  guard point.isValidChar
  return Char.ofNat point

/-- The character that a letter stands for after a backslash. -/
def shortEscape? (c : Char) : Option Char :=
  if c = '\x22' ∨ c = '\\' then some c
  else if c = 'b' then some '\x08'
  else if c = 'f' then some '\x0c'
  else if c = 'n' then some '\n'
  else if c = 'r' then some '\r'
  else if c = 't' then some '\t'
  else none

/-- Puts a character in front of a text that was read. -/
def prepend (c : Char) (found : Option (List Char × List Char)) :
    Option (List Char × List Char) :=
  found.map fun (text, rest) => (c :: text, rest)

/-- Reads a basic string behind its opening quote. -/
def readBasic : List Char → Option (List Char × List Char)
  | [] => none
  | '\x22' :: rest => some ([], rest)
  | '\\' :: 'u' :: a :: b :: c :: d :: rest =>
    (escapedPoint? [a, b, c, d]).bind (prepend · (readBasic rest))
  | '\\' :: 'U' :: a :: b :: c :: d :: e :: f :: g :: h :: rest =>
    (escapedPoint? [a, b, c, d, e, f, g, h]).bind (prepend · (readBasic rest))
  | '\\' :: c :: rest => (shortEscape? c).bind (prepend · (readBasic rest))
  | c :: rest => if isPlain c && c != '\\' then prepend c (readBasic rest) else none

/-- Reads a literal string behind its opening quote. -/
def readLiteral : List Char → Option (List Char × List Char)
  | [] => none
  | '\x27' :: rest => some ([], rest)
  | c :: rest => if isPlain c then prepend c (readLiteral rest) else none

/-- Whether only spaces and tabs stand before the end of the line. -/
def endsLine (cs : List Char) : Bool :=
  match cs.dropWhile fun c => c = ' ' || c = '\t' with
  | '\n' :: _ => true
  | '\r' :: '\n' :: _ => true
  | _ => false

/-- Reads a basic string of several lines behind its opening quotes. Behind a backslash that ends a
line white space is skipped. Up to two quotes may stand before the three that close. -/
def readLinesBasic (skipping : Bool) : List Char → Option (List Char × List Char)
  | [] => none
  | '\x22' :: '\x22' :: '\x22' :: '\x22' :: '\x22' :: rest => some (['\x22', '\x22'], rest)
  | '\x22' :: '\x22' :: '\x22' :: '\x22' :: rest => some (['\x22'], rest)
  | '\x22' :: '\x22' :: '\x22' :: rest => some ([], rest)
  | '\\' :: 'u' :: a :: b :: c :: d :: rest =>
    (escapedPoint? [a, b, c, d]).bind (prepend · (readLinesBasic false rest))
  | '\\' :: 'U' :: a :: b :: c :: d :: e :: f :: g :: h :: rest =>
    (escapedPoint? [a, b, c, d, e, f, g, h]).bind (prepend · (readLinesBasic false rest))
  | '\\' :: c :: rest =>
    if endsLine (c :: rest) then readLinesBasic true (c :: rest)
    else (shortEscape? c).bind (prepend · (readLinesBasic false rest))
  | '\r' :: '\n' :: rest =>
    if skipping then readLinesBasic true rest else prepend '\n' (readLinesBasic false rest)
  | '\n' :: rest =>
    if skipping then readLinesBasic true rest else prepend '\n' (readLinesBasic false rest)
  | c :: rest =>
    if skipping && (c = ' ' || c = '\t') then readLinesBasic true rest
    else if isPlain c && c != '\\' then prepend c (readLinesBasic false rest)
    else none

/-- Reads a literal string of several lines behind its opening quotes. -/
def readLinesLiteral : List Char → Option (List Char × List Char)
  | [] => none
  | '\x27' :: '\x27' :: '\x27' :: '\x27' :: '\x27' :: rest => some (['\x27', '\x27'], rest)
  | '\x27' :: '\x27' :: '\x27' :: '\x27' :: rest => some (['\x27'], rest)
  | '\x27' :: '\x27' :: '\x27' :: rest => some ([], rest)
  | '\r' :: '\n' :: rest => prepend '\n' (readLinesLiteral rest)
  | '\n' :: rest => prepend '\n' (readLinesLiteral rest)
  | c :: rest => if isPlain c then prepend c (readLinesLiteral rest) else none

/-- Drops a line break directly behind opening quotes. -/
def dropBreak : List Char → List Char
  | '\n' :: rest => rest
  | '\r' :: '\n' :: rest => rest
  | cs => cs

/-- Reads a string of any form; `none` when no quote is there. -/
def readString? : List Char → Option (List Char × List Char)
  | '\x22' :: '\x22' :: '\x22' :: rest => readLinesBasic false (dropBreak rest)
  | '\x22' :: rest => readBasic rest
  | '\x27' :: '\x27' :: '\x27' :: rest => readLinesLiteral (dropBreak rest)
  | '\x27' :: rest => readLiteral rest
  | _ => none

end QueryCriteria.Toml
