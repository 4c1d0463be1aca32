import QueryCriteria.Text.Lowercase.Table
/-!
# Small letters

A text in small letters, by the full Unicode mapping: one capital (dotted I) has a small form of
two characters, and a capital sigma at the end of a word becomes the final small sigma.
-/

namespace QueryCriteria.Text

/-- Whether a character is a letter with case. -/
def isCased (c : Char) : Bool := inRanges casedRanges c.toNat

/-- Whether a character is passed over when the neighbours of a letter are sought. -/
def isCaseIgnorable (c : Char) : Bool := inRanges caseIgnorableRanges c.toNat

/-- Whether the first character that counts is a letter with case. -/
def startsCased (cs : List Char) : Bool :=
  match cs.dropWhile isCaseIgnorable with
  | [] => false
  | c :: _ => isCased c

/-- The small form of one character, whatever stands around it. -/
def lowerChar (c : Char) : List Char :=
  let n := c.toNat
  if n < 0x80 then [c.toLower]
  else if n = 0x130 then ['i', '\u0307']
  else
    match caseRuns.find? (·.covers n) with
    | some run => [Char.ofNat (n + run.shift).toNat]
    | none => [c]

/-- The small form of a capital sigma, given the characters before it, nearest first, and after
it: final when a letter comes before and none after. -/
def lowerSigma (before after : List Char) : Char :=
  if startsCased before && !startsCased after then 'ς' else 'σ'

/-- The small form of the characters that follow `before`, which is nearest first. -/
def lowerAfter (before : List Char) : List Char → List Char
  | [] => []
  | c :: rest =>
    (if c = 'Σ' then [lowerSigma before rest] else lowerChar c) ++ lowerAfter (c :: before) rest

/-- A text in small letters. -/
def lower (s : String) : String := String.ofList (lowerAfter [] s.toList)

end QueryCriteria.Text
