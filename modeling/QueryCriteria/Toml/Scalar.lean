import QueryCriteria.Decimal.Nearest
import QueryCriteria.Json.Reader
import QueryCriteria.Toml.Basic
/-!
# Numbers and moments in TOML

Integers in four bases, floats and moments. Digits may have single underscores between them; a
decimal integer has no zero in front, and an integer fits 64 bits. Dates are dates of the calendar.
-/

namespace QueryCriteria.Toml

/-! ## Digits -/

/-- Reads further digits, with underscores between them. -/
def readMoreDigits (isDigit : Char → Bool) : List Char → Option (List Char × List Char)
  | '_' :: c :: rest =>
    if isDigit c then (readMoreDigits isDigit rest).map fun (cs, rest) => (c :: cs, rest) else none
  | ['_'] => none
  | c :: rest =>
    if isDigit c then (readMoreDigits isDigit rest).map fun (cs, rest) => (c :: cs, rest)
    else some ([], c :: rest)
  | [] => some ([], [])

/-- Reads digits, at least one. -/
def readDigits (isDigit : Char → Bool) : List Char → Option (List Char × List Char)
  | c :: rest =>
    if isDigit c then (readMoreDigits isDigit rest).map fun (cs, rest) => (c :: cs, rest) else none
  | [] => none

/-- Reads exactly so many digits, as a number. -/
def readFixed (count : Nat) (cs : List Char) : Option (Nat × List Char) :=
  let digits := cs.take count
  if digits.length = count ∧ digits.all Char.isDigit then
    some (Decimal.ofDigits digits, cs.drop count)
  else none

/-- Reads one character. -/
def readChar (c : Char) : List Char → Option (Unit × List Char)
  | d :: rest => if c = d then some ((), rest) else none
  | [] => none

/-! ## Numbers -/

/-- Reads the digits of a decimal integer: a lone zero, or digits that start with none. -/
def readWhole : List Char → Option (List Char × List Char)
  | '0' :: rest => some (['0'], rest)
  | cs => readDigits Char.isDigit cs

/-- The integer with a sign, if 64 bits hold it. -/
def boundedInteger? (negative : Bool) (n : Nat) : Option Toml :=
  if n < Nat.pow 2 63 ∨ negative ∧ n = Nat.pow 2 63 then
    some (.integer (if negative then -n else n))
  else none

/-- Reads a decimal integer. -/
def readDecimal (cs : List Char) : Option (Toml × List Char) := do
  let (negative, cs) := Decimal.splitSign cs
  let (digits, rest) ← readWhole cs
  let value ← boundedInteger? negative (Decimal.ofDigits digits)
  return (value, rest)

/-- Reads an integer in another base behind its mark. -/
def readInBase (base : Nat) (cs : List Char) : Option (Toml × List Char) := do
  let isDigit (c : Char) := (Json.hexDigit? c).any (· < base)
  let (digits, rest) ← readDigits isDigit cs
  let n := digits.foldl (fun n c => base * n + (Json.hexDigit? c).getD 0) 0
  let value ← boundedInteger? false n
  return (value, rest)

/-- Reads an integer. -/
def readInteger : List Char → Option (Toml × List Char)
  | '0' :: 'x' :: rest => readInBase 16 rest
  | '0' :: 'o' :: rest => readInBase 8 rest
  | '0' :: 'b' :: rest => readInBase 2 rest
  | cs => readDecimal cs

/-- Reads an exponent behind its letter. -/
def readExponent (cs : List Char) : Option (Int × List Char) := do
  let (negative, cs) := Decimal.splitSign cs
  let (digits, rest) ← readDigits Char.isDigit cs
  let n : Int := Decimal.ofDigits digits
  return (if negative then -n else n, rest)

/-- Reads an exponent if there is one. -/
def readExponent? : List Char → Option (Int × List Char)
  | c :: rest => if c = 'e' ∨ c = 'E' then readExponent rest else some (0, c :: rest)
  | [] => some (0, [])

/-- Reads the point and exponent of a float, of which one at least is there. -/
def readScale : List Char → Option ((List Char × Int) × List Char)
  | '.' :: rest => do
    let (fraction, rest) ← readDigits Char.isDigit rest
    let (exponent, rest) ← readExponent? rest
    return ((fraction, exponent), rest)
  | c :: rest =>
    if c = 'e' ∨ c = 'E' then (readExponent rest).map fun (exponent, rest) => (([], exponent), rest)
    else none
  | [] => none

/-- Reads a float. One that is too large is refused, unless it is negative: that is infinity. -/
def readFloat (cs : List Char) : Option (Toml × List Char) := do
  let (negative, cs) := Decimal.splitSign cs
  let (whole, rest) ← readWhole cs
  let ((fraction, exponent), rest) ← readScale rest
  let x := Decimal.nearest negative (Decimal.ofDigits (whole ++ fraction))
    (exponent - fraction.length)
  guard (!x.isInf || negative)
  return (.float x, rest)

/-- Reads a float that is named. -/
def readNamedFloat (cs : List Char) : Option (Toml × List Char) :=
  match Decimal.splitSign cs with
  | (negative, 'i' :: 'n' :: 'f' :: rest) =>
    some (.float (Decimal.ofMagnitudeBits negative 0x7ff0000000000000), rest)
  | (negative, 'n' :: 'a' :: 'n' :: rest) =>
    some (.float (Decimal.ofMagnitudeBits negative 0x7ff8000000000000), rest)
  | _ => none

/-! ## Moments -/

/-- A number in so many digits at least. -/
def padded (width n : Nat) : String :=
  let digits := toString n
  String.ofList (List.replicate (width - digits.length) '0') ++ digits

/-- The number of days of a month. -/
def daysIn (year month : Nat) : Nat :=
  if month = 2 then
    if year % 4 = 0 ∧ (year % 100 ≠ 0 ∨ year % 400 = 0) then 29 else 28
  else if month = 4 ∨ month = 6 ∨ month = 9 ∨ month = 11 then 30
  else 31

/-- Reads a date of the calendar. -/
def readDate (cs : List Char) : Option (String × List Char) := do
  let (year, cs) ← readFixed 4 cs
  let (_, cs) ← readChar '-' cs
  let (month, cs) ← readFixed 2 cs
  let (_, cs) ← readChar '-' cs
  let (day, cs) ← readFixed 2 cs
  guard (1 ≤ month ∧ month ≤ 12 ∧ 1 ≤ day ∧ day ≤ daysIn year month)
  return (padded 4 year ++ "-" ++ padded 2 month ++ "-" ++ padded 2 day, cs)

/-- Reads hours and minutes. -/
def readHourMinute (cs : List Char) : Option ((Nat × Nat) × List Char) := do
  let (hour, cs) ← readFixed 2 cs
  let (_, cs) ← readChar ':' cs
  let (minute, cs) ← readFixed 2 cs
  guard (hour < 24 ∧ minute < 60)
  return ((hour, minute), cs)

/-- Reads the fraction of a second if there is one. Nine digits count, and zeros behind the others
are left out. -/
def readSecondFraction : List Char → Option (String × List Char)
  | '.' :: rest =>
    let digits := rest.takeWhile Char.isDigit
    if digits.isEmpty then none
    else
      let kept := ((digits.take 9).reverse.dropWhile (· = '0')).reverse
      some (if kept.isEmpty then "" else "." ++ String.ofList kept, rest.dropWhile Char.isDigit)
  | cs => some ("", cs)

/-- Reads a time of day; a minute may have a leap second. -/
def readTime (cs : List Char) : Option (String × List Char) := do
  let ((hour, minute), cs) ← readHourMinute cs
  let (_, cs) ← readChar ':' cs
  let (second, cs) ← readFixed 2 cs
  guard (second ≤ 60)
  let (fraction, cs) ← readSecondFraction cs
  return (padded 2 hour ++ ":" ++ padded 2 minute ++ ":" ++ padded 2 second ++ fraction, cs)

/-- Reads the distance from universal time. -/
def readOffset : List Char → Option (String × List Char)
  | c :: rest =>
    if c = 'Z' ∨ c = 'z' then some ("Z", rest)
    else if c = '+' ∨ c = '-' then do
      let ((hour, minute), rest) ← readHourMinute rest
      let sign := if c = '-' ∧ (hour, minute) ≠ (0, 0) then "-" else "+"
      return (sign ++ padded 2 hour ++ ":" ++ padded 2 minute, rest)
    else none
  | [] => none

/-- Reads the time behind a date, with its distance from universal time. -/
def readTimeOfDate : List Char → Option (String × List Char)
  | c :: rest =>
    if c = 'T' ∨ c = 't' ∨ c = ' ' then do
      let (time, rest) ← readTime rest
      match readOffset rest with
      | some (offset, rest) => return (time ++ offset, rest)
      | none => return (time, rest)
    else none
  | [] => none

/-- Reads a date, a time, or both. -/
def readMoment (cs : List Char) : Option (Toml × List Char) :=
  match readDate cs with
  | some (date, rest) =>
    match readTimeOfDate rest with
    | some (time, rest) => some (.moment (date ++ "T" ++ time), rest)
    | none => some (.moment date, rest)
  | none => (readTime cs).map fun (time, rest) => (.moment time, rest)

/-- Reads a number, a moment or a truth value. -/
def readScalar : List Char → Option (Toml × List Char)
  | 't' :: 'r' :: 'u' :: 'e' :: rest => some (.boolean true, rest)
  | 'f' :: 'a' :: 'l' :: 's' :: 'e' :: rest => some (.boolean false, rest)
  | cs => readMoment cs <|> readFloat cs <|> readNamedFloat cs <|> readInteger cs

end QueryCriteria.Toml
