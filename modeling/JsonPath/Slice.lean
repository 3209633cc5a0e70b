/-!
Slices of sequences. A bound below zero counts from the end; a bound outside the sequence is moved
to its end, and the indices go from the start towards the stop, which is left out, by steps.
-/

namespace JsonPath.Slice

/-- A bound of a slice of `length` items, counted from the start and moved into the range in which
it makes a difference. Going down, the place before the first item is in it. -/
def bound (length step : Int) (index : Int) : Int :=
  let index := if index < 0 then index + length else index
  if 0 < step then min (max index 0) length else min (max index (-1)) (length - 1)

def progression (start step : Int) (count : Nat) : List Int :=
  (List.range count).map fun (n : Nat) => start + n * step

def count (start stop step : Int) : Nat :=
  if 0 < step then ((stop - start + step - 1) / step).toNat
  else if step < 0 then ((start - stop - step - 1) / -step).toNat
  else 0

/-- The indices that a slice takes from `length` items. Without a step they go up by one. -/
def indices (length : Nat) (start? stop? step? : Option Int) : List Int :=
  let step := step?.getD 1
  if length = 0 ∨ step = 0 then []
  else
    let start := (start?.map (bound length step)).getD (if step < 0 then length - 1 else 0)
    let stop := (stop?.map (bound length step)).getD (if step < 0 then -1 else length)
    progression start step (count start stop step)

end JsonPath.Slice
