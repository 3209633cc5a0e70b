import JsonPath.Text

/-!
Sets of characters given by ranges of code points, as the standard lists them: increasing, disjoint
and inclusive at both ends.
-/

namespace JsonPath.Unicode

/-- Inclusive ranges of code points. -/
abbrev Ranges := List (Nat × Nat)

def Ranges.covers (ranges : Ranges) (code : Nat) : Bool :=
  ranges.any fun range => range.1 ≤ code && code ≤ range.2

end JsonPath.Unicode
