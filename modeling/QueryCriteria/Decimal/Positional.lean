import QueryCriteria.Decimal.Shortest
/-!
# Positional notation

The digits of a decimal laid out around the point, without an exponent, and the text of a float in
that notation: the fewest digits that read back, no fraction when there is none to write.
-/

namespace QueryCriteria.Decimal

namespace Digits

/-- The decimal digits, most significant first. -/
def chars (d : Digits) : List Char := Nat.toDigits 10 d.digits

/-- How many digits stand before the point; not positive when the decimal is below one. -/
def point (d : Digits) : Int := d.chars.length + d.exponent

/-- The digits before the point, a lone zero when there are none. -/
def whole (d : Digits) : List Char :=
  if d.point ≤ 0 then ['0']
  else d.chars.take d.point.toNat ++ List.replicate (d.point.toNat - d.chars.length) '0'

/-- The digits after the point. -/
def fraction (d : Digits) : List Char :=
  if d.point ≤ 0 then List.replicate (-d.point).toNat '0' ++ d.chars
  else d.chars.drop d.point.toNat

end Digits

/-- A float in positional notation, of two nearest texts the larger. The sign of a zero is
written, that of a number which is none is not. -/
def positional (x : Float) : String :=
  let sign := if isNegative x then "-" else ""
  match magnitude x with
  | .nan => "NaN"
  | .infinite => sign ++ "inf"
  | .zero => sign ++ "0"
  | .finite b =>
    let d := b.shortest .up
    sign ++ String.ofList d.whole ++
      (if d.fraction.isEmpty then "" else "." ++ String.ofList d.fraction)

end QueryCriteria.Decimal
