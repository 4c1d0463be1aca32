import QueryCriteria.Decimal.Binary
/-!
# Shortest decimals

The fewest digits that read back as a given float, and of those the nearest to it. The decimals
that read back form an interval around the float, which reaches halfway to its two neighbours and
includes its ends exactly when the mantissa is even. On the grid of decimals with a fixed last
place only the two grid points next to the float can be nearest, so each grid is decided by
testing those two, the coarsest grid first.
-/

namespace QueryCriteria.Decimal

/-- A positive decimal, `digits · 10 ^ exponent`. -/
structure Digits where
  digits : Nat
  exponent : Int
deriving Repr, DecidableEq

/-- Which of two equally near decimals is taken. -/
inductive Tie where
  | toEven
  | up
deriving Repr, DecidableEq

/-- The order of `d · 10 ^ e` and `n · 2 ^ b`, by cross multiplication. -/
def compareScaled (d : Nat) (e : Int) (n : Nat) (b : Int) : Ordering :=
  compare (d * Nat.pow 10 e.toNat * Nat.pow 2 (-b).toNat)
    (n * Nat.pow 2 b.toNat * Nat.pow 10 (-e).toNat)

namespace Binary

/-- Whether a decimal reads back as the float: it lies between the middles of the gaps on both
sides, which are written here in quarters of the mantissa's unit. -/
def readsBack (x : Binary) (d : Nat) (e : Int) : Bool :=
  let low := 4 * x.mantissa - (if x.narrowBelow then 1 else 2)
  let high := 4 * x.mantissa + 2
  let unit := x.exponent - 2
  if x.mantissa % 2 = 0 then
    (compareScaled d e low unit).isGE && (compareScaled d e high unit).isLE
  else
    (compareScaled d e low unit).isGT && (compareScaled d e high unit).isLT

/-- The place of the leading digit: `10 ^ place` is at most the float, and the next power of ten
is above it. -/
def place (x : Binary) : Int :=
  let guess := ((x.mantissa.log2 + x.exponent) * 1233).fdiv 4096
  if (compareScaled 1 guess x.mantissa x.exponent).isGT then guess - 1
  else if (compareScaled 1 (guess + 1) x.mantissa x.exponent).isLE then guess + 1
  else guess

/-- The grid point below the float and the order of the float and the middle of its grid cell. -/
def gridCell (x : Binary) (e : Int) : Nat × Ordering :=
  let top := x.mantissa * Nat.pow 2 x.exponent.toNat * Nat.pow 10 (-e).toNat
  let unit := Nat.pow 2 (-x.exponent).toNat * Nat.pow 10 e.toNat
  (top / unit, compare (2 * (top % unit)) unit)

/-- The nearest point of the grid `10 ^ e` that reads back, if there is one. -/
def onGrid? (x : Binary) (tie : Tie) (e : Int) : Option Digits :=
  let (below, middle) := x.gridCell e
  let above := below + 1
  match x.readsBack below e, x.readsBack above e with
  | false, false => none
  | true, false => some ⟨below, e⟩
  | false, true => some ⟨above, e⟩
  | true, true =>
    match middle with
    | .lt => some ⟨below, e⟩
    | .gt => some ⟨above, e⟩
    | .eq =>
      match tie with
      | .up => some ⟨above, e⟩
      | .toEven => some ⟨below + below % 2, e⟩

end Binary

/-- Moves zeros at the end of the digits into the exponent. -/
def Digits.normalize (d : Digits) : Digits :=
  if h : d.digits ≠ 0 ∧ d.digits % 10 = 0 then
    Digits.normalize ⟨d.digits / 10, d.exponent + 1⟩
  else d
termination_by d.digits
decreasing_by omega

/-- The shortest decimal that reads back as the float. Seventeen digits always do. -/
def Binary.shortest (x : Binary) (tie : Tie) : Digits :=
  let found := (List.range 17).findSome? fun (k : Nat) => x.onGrid? tie (x.place - k)
  (found.getD ⟨(x.gridCell (x.place - 16)).1, x.place - 16⟩).normalize

end QueryCriteria.Decimal
