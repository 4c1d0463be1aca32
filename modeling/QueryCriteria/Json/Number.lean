import QueryCriteria.Decimal.Positional
import QueryCriteria.Decimal.Nearest
/-!
# JSON numbers

A number as it is written: a sign, digits around a point, an exponent. Its text is all the grammar
fixes; what it denotes is decided when a value is read from it.
-/

namespace QueryCriteria.Json

/-- A number as written. An empty `fraction` stands for no point. -/
structure Number where
  negative : Bool
  whole : List Char
  fraction : List Char
  exponent : Option Int
deriving Repr, DecidableEq

namespace Number

/-- The digits of a whole number. -/
def digits (n : Nat) : List Char := Nat.toDigits 10 n

/-- A whole number, written plainly. -/
def ofInt (i : Int) : Number := ⟨i < 0, digits i.natAbs, [], none⟩

/-- The exponent part of a number: a sign, then digits. -/
def exponentChars : Option Int → List Char
  | none => []
  | some e => 'e' :: (if e < 0 then '-' else '+') :: digits e.natAbs

/-- The text of a number. -/
def chars (n : Number) : List Char :=
  (if n.negative then ['-'] else []) ++ n.whole ++
    (if n.fraction.isEmpty then [] else '.' :: n.fraction) ++ exponentChars n.exponent

/-! ## Writing floats -/

/-- A decimal with its point behind the first digit and the exponent that makes up for it. -/
def scientific (negative : Bool) (d : Decimal.Digits) : Number :=
  ⟨negative, d.chars.take 1, d.chars.drop 1, some (d.point - 1)⟩

/-- A decimal in positional notation, with a lone zero for an empty fraction. -/
def positional (negative : Bool) (d : Decimal.Digits) : Number :=
  ⟨negative, d.whole, if d.fraction.isEmpty then ['0'] else d.fraction, none⟩

/-- A float in the fewest digits that read back, of two nearest texts the even one: positional
when the leading digit's exponent is between -5 and 15. Only finite floats are numbers. -/
def ofFloat? (x : Float) : Option Number :=
  let negative := Decimal.isNegative x
  match Decimal.magnitude x with
  | .nan | .infinite => none
  | .zero => some ⟨negative, ['0'], ['0'], none⟩
  | .finite b =>
    let d := b.shortest .toEven
    some (if -5 < d.point ∧ d.point ≤ 16 then positional negative d else scientific negative d)

/-! ## Reading -/

/-- What a number denotes: an integer of 64 bits, or a float. -/
inductive Meaning where
  | integer (i : Int64)
  | float (x : Float)

/-- Takes digits into an unsigned number of 64 bits as long as it can hold them; the digits left
over follow. -/
def absorb (significand : Nat) : List Char → Nat × List Char
  | [] => (significand, [])
  | c :: cs =>
    let next := 10 * significand + (c.toNat - '0'.toNat)
    if next < Nat.pow 2 64 then absorb next cs else (significand, c :: cs)

/-- Divides by a power of ten in steps of at most `10 ^ 308`, the largest that is a float. -/
def divideByPower (x : Float) (n : Nat) : Float :=
  if n ≤ 308 then x / Decimal.powerOfTen n
  else if x == 0 then x
  else divideByPower (x / Decimal.powerOfTen 308) (n - 308)
termination_by n

/-- Scales by a power of ten, with one rounding for each operation; `none` beyond the largest
float. -/
def scale? (x : Float) (exponent : Int) : Option Float :=
  if exponent < 0 then some (divideByPower x exponent.natAbs)
  else if exponent ≤ 308 then
    let y := x * Decimal.powerOfTen exponent.toNat
    if y.isInf then none else some y
  else if x == 0 then some x
  else none

/-- The float that significant digits and a power of ten denote. -/
def signed? (negative : Bool) (significand : Nat) (exponent : Int) : Option Float :=
  (scale? (UInt64.ofNat significand).toFloat exponent).map fun x => if negative then -x else x

/-- What a number denotes. Digits beyond 64 bits count for their place only. A number without
point and exponent is an integer when 64 bits with a sign can hold it; a negative zero is a
float. No meaning is given to a number beyond the largest float. -/
def meaning? (n : Number) : Option Meaning :=
  let (whole, dropped) := absorb 0 n.whole
  if n.fraction.isEmpty ∧ n.exponent.isNone ∧ dropped.isEmpty then
    if n.negative then
      if whole = 0 ∨ Nat.pow 2 63 < whole then some (.float (-(UInt64.ofNat whole).toFloat))
      else some (.integer (.ofInt (-whole)))
    else if whole < Nat.pow 2 63 then some (.integer (.ofNat whole))
    else some (.float (UInt64.ofNat whole).toFloat)
  else
    let (significand, ignored) := absorb whole n.fraction
    let places := n.fraction.length - ignored.length
    let exponent := n.exponent.getD 0 + dropped.length - places
    (signed? n.negative significand exponent).map .float

end Number

end QueryCriteria.Json
