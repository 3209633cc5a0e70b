import JsonPath.Number.Double

/-!
Decimal notation for binary64 numbers: reading rounds to the nearest number, and writing takes the
fewest digits that read back as the same number.
-/

namespace JsonPath

structure Decimal where
  negative : Bool
  coefficient : Nat
  exponent : Int
deriving DecidableEq, Repr

def decimalLength (n : Nat) : Nat := (Nat.toDigits 10 n).length

/-- The binary64 number nearest to the value. Beyond `10 ^ 310` all are infinite and below
`10 ^ -330` all are zero, so no power outside these bounds is computed. -/
def Decimal.toDouble (d : Decimal) : Double :=
  let top := decimalLength d.coefficient + d.exponent
  if d.coefficient = 0 ∨ top < -330 then .finite d.negative .zero
  else if 310 < top then .infinite d.negative
  else if 0 ≤ d.exponent then .ofRatio d.negative (d.coefficient * tenTo d.exponent.toNat) 1
  else .ofRatio d.negative d.coefficient (tenTo (-d.exponent).toNat)

namespace Magnitude

def grid (exponent : Int) : Nat × Nat :=
  if 0 ≤ exponent then (tenTo exponent.toNat, 1) else (1, tenTo (-exponent).toNat)

/-- Whether `n * 10 ^ exponent` reads back as the magnitude: it lies between the midpoints to the
two neighbours, which belong to an even mantissa. All is counted in quarters of the last unit. -/
def readsBack (m : Magnitude) (n : Nat) (exponent : Int) : Bool :=
  let unit := twoTo m.exponent
  let value := 4 * m.units
  let low := value - (if m.mantissa = twoTo 52 ∧ m.exponent ≠ 0 then unit else 2 * unit)
  let high := value + 2 * unit
  let point := n * (grid exponent).1 * twoTo 1076
  let denominator := (grid exponent).2
  if m.mantissa % 2 = 0 then low * denominator ≤ point && point ≤ high * denominator
  else low * denominator < point && point < high * denominator

/-- The decimal exponent of the leading digit. No magnitude but zero is below `10 ^ -400`. -/
def leadingExponent (m : Magnitude) : Int :=
  (decimalLength (m.units * tenTo 400 / twoTo 1074) : Int) - 401

/-- The nearest point with the given exponent that reads back, if one of the two neighbours of the
magnitude on that grid does. Halfway between them the even one is taken. -/
def neighbour? (m : Magnitude) (exponent : Int) : Option (Nat × Int) :=
  let value := m.units * (grid exponent).2
  let unit := (grid exponent).1 * twoTo 1074
  let below := value / unit
  let twice := 2 * (value % unit)
  match m.readsBack below exponent, m.readsBack (below + 1) exponent with
  | true, true =>
    let up := unit < twice || (unit == twice && below % 2 == 1)
    some (if up then below + 1 else below, exponent)
  | true, false => some (below, exponent)
  | false, true => some (below + 1, exponent)
  | false, false => none

/-- The decimal with the fewest digits that reads back, and of those the nearest. Seventeen digits
always suffice. -/
def shortest (m : Magnitude) : Nat × Int :=
  let lead := m.leadingExponent
  ((List.range 17).findSome? fun (more : Nat) => m.neighbour? (lead - more)).getD (0, 0)

end Magnitude

end JsonPath
