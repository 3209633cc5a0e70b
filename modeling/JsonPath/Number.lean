import JsonPath.Number.Layout

/-!
Numbers are integers of any size or binary64 numbers. They are compared by their exact values, so
an integer is never rounded to compare it; a NaN is neither equal to nor less than any number.
-/

namespace JsonPath

inductive Number where
  | integer (n : Int)
  | double (d : Double)
deriving DecidableEq

/-- A point of the number line with its two ends; the points count units of `2 ^ -1074`. -/
inductive Place where
  | lowest
  | at (units : Int)
  | highest
deriving DecidableEq

def Place.before : Place → Place → Bool
  | .lowest, .lowest => false
  | .lowest, _ => true
  | .at a, .at b => a < b
  | .at _, .highest => true
  | _, _ => false

namespace Number

def place? : Number → Option Place
  | integer n => some (.at (n * twoTo 1074))
  | double (.finite negative size) => some (.at (if negative then -size.units else size.units))
  | double (.infinite negative) => some (if negative then .lowest else .highest)
  | double .nan => none

/-- Equality of values: a NaN equals nothing, and zeros of both signs are equal. -/
def same (a b : Number) : Bool :=
  match a.place?, b.place? with
  | some p, some q => p = q
  | _, _ => false

def less (a b : Number) : Bool :=
  match a.place?, b.place? with
  | some p, some q => p.before q
  | _, _ => false

def isZero : Number → Bool
  | integer n => n == 0
  | double d => d.isZero

def text (layout : Layout) : Number → Text
  | integer n => Text.ofInt n
  | double d => layout.double d

end Number

end JsonPath
