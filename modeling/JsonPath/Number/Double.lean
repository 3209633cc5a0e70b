import JsonPath.Number.Power

/-!
Binary64 numbers, given by their exact values. A finite one is a sign and a magnitude, which counts
units of `2 ^ -1074`, so every comparison is one of integers.
-/

namespace JsonPath

/-- The size of a finite binary64 number: `mantissa * 2 ^ exponent` units of `2 ^ -1074`. The
exponent is the least one that leaves 53 bits for the mantissa, so each size is written once. -/
structure Magnitude where
  mantissa : Nat
  exponent : Nat
  mantissa_lt : mantissa < twoTo 53
  exponent_le : exponent ≤ 2045
  normal : exponent = 0 ∨ twoTo 52 ≤ mantissa
deriving DecidableEq

inductive Double where
  | finite (negative : Bool) (size : Magnitude)
  | infinite (negative : Bool)
  | nan
deriving DecidableEq

namespace Magnitude

def units (m : Magnitude) : Nat := m.mantissa * twoTo m.exponent

def zero : Magnitude := ⟨0, 0, by decide, by decide, .inl rfl⟩

instance : Inhabited Magnitude := ⟨zero⟩

/-- The natural number nearest to a quotient, an exact half going to the even one. -/
def nearestQuotient (numerator denominator : Nat) : Nat :=
  let floor := numerator / denominator
  let twice := 2 * (numerator % denominator)
  if twice < denominator then floor
  else if denominator < twice then floor + 1
  else floor + floor % 2

def ofParts? (mantissa exponent : Nat) : Option Magnitude :=
  if h : mantissa < twoTo 53 ∧ exponent ≤ 2045 ∧ (exponent = 0 ∨ twoTo 52 ≤ mantissa) then
    some ⟨mantissa, exponent, h.1, h.2.1, h.2.2⟩
  else none

/-- The magnitude nearest to a ratio, an exact half going to the even mantissa; `none` beyond the
greatest one. -/
def ofRatio? (numerator denominator : Nat) : Option Magnitude :=
  let scaled := numerator * twoTo 1074
  let exponent := (scaled / denominator).log2 - 52
  let mantissa := nearestQuotient scaled (denominator * twoTo exponent)
  if mantissa = twoTo 53 then ofParts? (twoTo 52) (exponent + 1) else ofParts? mantissa exponent

end Magnitude

namespace Double

def units? : Double → Option Int
  | finite negative size => some (if negative then -size.units else size.units)
  | _ => none

def ofRatio (negative : Bool) (numerator denominator : Nat) : Double :=
  (Magnitude.ofRatio? numerator denominator).elim (infinite negative) (finite negative)

def isZero (d : Double) : Bool := d.units? == some 0

end Double

end JsonPath
