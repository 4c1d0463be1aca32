import QueryCriteria.Text.Hidden
/-!
# Quoted text

How a message quotes a text: between double quotes, with a backslash before a quote or backslash,
short escapes for the common controls, and hidden characters spelled by number.
-/

namespace QueryCriteria.Text

/-- A character spelled by its number, in the form `\u{301}`. -/
def spellByNumber (c : Char) : List Char :=
  '\\' :: 'u' :: '\x7b' :: Nat.toDigits 16 c.toNat ++ ['\x7d']

/-- One character as it stands between the quotes. -/
def spellQuoted (c : Char) : List Char :=
  if c = '\x22' then ['\\', '\x22']
  else if c = '\\' then ['\\', '\\']
  else if c = '\x00' then ['\\', '0']
  else if c = '\t' then ['\\', 't']
  else if c = '\n' then ['\\', 'n']
  else if c = '\r' then ['\\', 'r']
  else if isHidden c then spellByNumber c
  else [c]

/-- A text as a message quotes it. -/
def quote (s : String) : String :=
  String.ofList ('\x22' :: s.toList.flatMap spellQuoted ++ ['\x22'])

end QueryCriteria.Text
