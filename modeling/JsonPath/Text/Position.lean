import JsonPath.Text

/-!
Places in a text, as offsets and as lines and columns. Only a line feed ends a line; offsets count
characters from zero, lines and columns from one.
-/

namespace JsonPath

structure Position where
  line : Nat
  column : Nat
deriving DecidableEq, Repr

/-- The place at an offset; past the end of the text the last line goes on. -/
def Position.ofOffset (text : List CodePoint) (offset : Nat) : Position :=
  let before := text.take offset
  let onLine := (before.reverse.takeWhile (· ≠ ('\n' : CodePoint))).length
  ⟨before.count ('\n' : CodePoint) + 1, offset - (before.length - onLine) + 1⟩

end JsonPath
