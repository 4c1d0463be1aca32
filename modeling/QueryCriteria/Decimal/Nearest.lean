import QueryCriteria.Decimal.Binary
/-!
# Reading decimals

The float nearest to a decimal, by exact arithmetic, a tie going to the even mantissa.
-/

namespace QueryCriteria.Decimal

/-- The number that a list of decimal digits spells. -/
def ofDigits (cs : List Char) : Nat :=
  cs.foldl (fun n c => 10 * n + (c.toNat - '0'.toNat)) 0

/-- The float nearest to `digits · 10 ^ exponent`. Decimals with a leading place beyond 400 on
either side are infinity and zero without more ado: the floats end well inside. -/
def nearest (negative : Bool) (digits : Nat) (exponent : Int) : Float :=
  let place : Int := (Nat.toDigits 10 digits).length + exponent
  ofMagnitudeBits negative <|
    if digits = 0 ∨ place < -400 then 0
    else if 400 < place then 0x7ff0000000000000
    else nearestBits (digits * Nat.pow 10 exponent.toNat) (Nat.pow 10 (-exponent).toNat)

/-- The float nearest to `10 ^ n`. -/
def powerOfTen (n : Nat) : Float := nearest false 1 n

/-- A text split into sign and the rest. -/
def splitSign : List Char → Bool × List Char
  | '-' :: rest => (true, rest)
  | '+' :: rest => (false, rest)
  | cs => (false, cs)

/-- Reads an exponent, a sign and at least one digit. -/
def readExponent? (cs : List Char) : Option Int :=
  let (negative, digits) := splitSign cs
  if digits.isEmpty || !digits.all Char.isDigit then none
  else some (if negative then -(ofDigits digits : Int) else ofDigits digits)

/-- Reads digits around an optional point, then an optional exponent. -/
def readDecimal? (negative : Bool) (cs : List Char) : Option Float := do
  let (mantissa, tail) := cs.span fun c => c != 'e' && c != 'E'
  let exponent ← match tail with
    | [] => some 0
    | _ :: digits => readExponent? digits
  let (whole, tail) := mantissa.span (· != '.')
  let fraction := tail.drop 1
  guard (!(whole ++ fraction).isEmpty && (whole ++ fraction).all Char.isDigit)
  return nearest negative (ofDigits (whole ++ fraction)) (exponent - fraction.length)

/-- Reads a float: an optional sign, then a decimal or the name of a number that is not finite. -/
def read? (s : String) : Option Float :=
  let (negative, rest) := splitSign s.toList
  let name := rest.map Char.toLower
  if name = "nan".toList then some (ofMagnitudeBits negative 0x7ff8000000000000)
  else if name = "inf".toList ∨ name = "infinity".toList then
    some (ofMagnitudeBits negative 0x7ff0000000000000)
  else readDecimal? negative rest

end QueryCriteria.Decimal
