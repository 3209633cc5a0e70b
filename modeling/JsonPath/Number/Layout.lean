import JsonPath.Number.Decimal
import JsonPath.Text

/-!
The text of a binary64 number. The digits are the shortest that read back; a layout says where the
point goes, when an exponent is written, and what stands for the values that have no digits.
-/

namespace JsonPath

/-- How binary64 numbers are written: without an exponent where that of the leading digit is at
least `leastPlain` and below `leastScientific`, and elsewhere with `exponentDigits` digits of it or
more. -/
structure Layout where
  leastPlain : Int
  leastScientific : Int
  exponentDigits : Nat
  infinity : Text
  nan : Text

namespace Layout

/-- Plain notation reaches from `0.0001` up to below `1e+16`, exponents have two digits or more,
and the values without digits have their JSON extension names. -/
def json : Layout := ⟨-4, 16, 2, "Infinity", "NaN"⟩

def diagnostic : Layout := { json with infinity := "inf", nan := "nan" }

/-- The digits with the point set `before` places after their start; there is at least one digit
on each side of the point. -/
def plain (digits : List CodePoint) (before : Int) : List CodePoint :=
  if before ≤ 0 then
    ('0' : CodePoint) :: '.' :: List.replicate (-before).toNat '0' ++ digits
  else if digits.length ≤ before then
    digits ++ List.replicate (before.toNat - digits.length) ('0' : CodePoint) ++
      [('.' : CodePoint), '0']
  else
    digits.take before.toNat ++ ('.' : CodePoint) :: digits.drop before.toNat

def scientific (layout : Layout) (digits : List CodePoint) (exponent : Int) : List CodePoint :=
  let size := Text.digits 10 exponent.natAbs
  let padding := List.replicate (layout.exponentDigits - size.length) ('0' : CodePoint)
  let fraction := if digits.length ≤ 1 then [] else ('.' : CodePoint) :: digits.drop 1
  digits.take 1 ++ fraction ++
    ('e' : CodePoint) :: (if exponent < 0 then '-' else '+') :: padding ++ size

def decimal (layout : Layout) (coefficient : Nat) (exponent : Int) : List CodePoint :=
  let written := Text.digits 10 coefficient
  let before := (written.length : Int) + exponent
  let digits := (written.reverse.dropWhile (· == ('0' : CodePoint))).reverse
  if layout.leastPlain < before ∧ before ≤ layout.leastScientific then plain digits before
  else layout.scientific digits (before - 1)

def magnitude (layout : Layout) (m : Magnitude) : List CodePoint :=
  if m.mantissa = 0 then plain ['0'] 1 else layout.decimal m.shortest.1 m.shortest.2

def double (layout : Layout) : Double → Text
  | .nan => layout.nan
  | .infinite negative => (if negative then "-" else "") ++ layout.infinity
  | .finite negative size =>
    (if negative then "-" else "") ++ Text.ofList (layout.magnitude size)

end Layout

end JsonPath
