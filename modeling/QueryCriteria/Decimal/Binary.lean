/-!
# Floats as exact numbers

A float is a sign and a magnitude; a finite magnitude other than zero is a whole number times a
power of two. Decoding and encoding the 64 bits is all that the decimal modules know about floats:
what they compute is exact arithmetic on `Nat`.
-/

namespace QueryCriteria.Decimal

/-- A positive finite float, `mantissa · 2 ^ exponent`. The float below it is only half as far away
as the one above when `narrowBelow` holds. -/
structure Binary where
  mantissa : Nat
  exponent : Int
  narrowBelow : Bool
deriving Repr, DecidableEq

/-- The size of a float, its sign apart. -/
inductive Magnitude where
  | zero
  | finite (value : Binary)
  | infinite
  | nan
deriving Repr, DecidableEq

/-- The magnitude that 63 bits spell: eleven for the exponent, fifty-two for the fraction. -/
def Magnitude.ofBits (bits : Nat) : Magnitude :=
  let exponent : Nat := bits / Nat.pow 2 52 % Nat.pow 2 11
  let fraction : Nat := bits % Nat.pow 2 52
  if exponent = 0x7ff then if fraction = 0 then .infinite else .nan
  else if exponent = 0 then
    if fraction = 0 then .zero else .finite ⟨fraction, -1074, false⟩
  else .finite ⟨Nat.pow 2 52 + fraction, exponent - 1075, fraction = 0 ∧ 1 < exponent⟩

/-- The magnitude of a float. -/
def magnitude (x : Float) : Magnitude := .ofBits x.toBits.toNat

/-- Whether the sign bit of a float is set; zero and infinity have one too. -/
def isNegative (x : Float) : Bool := Nat.pow 2 63 ≤ x.toBits.toNat

/-- The 63 bits of the float nearest to the positive fraction `num / den`: the exponent is the
least one at which the mantissa has at most fifty-three bits, and a tie goes to the even mantissa.
A mantissa that rounds up to a power of two carries into the exponent, and a number beyond the
largest float becomes infinity. -/
def nearestBits (num den : Nat) : Nat :=
  let quotient (q : Int) : Nat := num * Nat.pow 2 (-q).toNat / (den * Nat.pow 2 q.toNat)
  let guess : Int := num.log2 - den.log2 - 52
  let fitted := if Nat.pow 2 53 ≤ quotient guess then guess + 1
    else if quotient guess < Nat.pow 2 52 then guess - 1 else guess
  let q : Int := max fitted (-1074)
  let top := num * Nat.pow 2 (-q).toNat
  let unit := den * Nat.pow 2 q.toNat
  let floor := top / unit
  let rest := top % unit
  let rounded := if 2 * rest < unit then floor
    else if unit < 2 * rest then floor + 1
    else floor + floor % 2
  min ((q + 1074).toNat * Nat.pow 2 52 + rounded) 0x7ff0000000000000

/-- The float with the given sign and 63 further bits. -/
def ofMagnitudeBits (negative : Bool) (bits : Nat) : Float :=
  Float.ofBits (UInt64.ofNat (if negative then bits + Nat.pow 2 63 else bits))

end QueryCriteria.Decimal
