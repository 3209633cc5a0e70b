import JsonPath.Text.Position
import Mathlib.Data.List.DropRight

/-!
# Lines and columns

A line and a column name one offset of a text. Between two offsets on one line there is no line
feed, so all that stands between them counts as columns.
-/

namespace JsonPath

namespace Position

/-- The place is where the offset is: so many line feeds stand before it, and so many characters
after the last of them, or after the start of the text if there is none. -/
structure IsAt (place : Position) (text : List CodePoint) (offset : Nat) : Prop where
  le_length : offset ≤ text.length
  line : (text.take offset).count ('\n' : CodePoint) + 1 = place.line
  column : ∃ earlier onLine, text.take offset = earlier ++ onLine ∧
    (∀ c ∈ earlier.getLast?, c = '\n') ∧ ('\n' : CodePoint) ∉ onLine ∧
      onLine.length + 1 = place.column

/-- What stands up to the last line feed, with it. -/
def closedLines (text : List CodePoint) : List CodePoint := text.rdropWhile (· ≠ '\n')

/-- What stands after the last line feed. -/
def lastLine (text : List CodePoint) : List CodePoint := text.rtakeWhile (· ≠ '\n')

variable {text earlier onLine : List CodePoint} {offset : Nat} {place : Position}

theorem closedLines_append_lastLine (text : List CodePoint) :
    closedLines text ++ lastLine text = text := List.rdropWhile_append_rtakeWhile

theorem getLast?_closedLines (text : List CodePoint) :
    ∀ c ∈ (closedLines text).getLast?, c = '\n' := by
  intro c hc
  have hhead := List.head?_dropWhile_not (· ≠ ('\n' : CodePoint)) text.reverse
  unfold closedLines List.rdropWhile at hc
  rw [List.getLast?_reverse] at hc
  rw [Option.mem_def.1 hc] at hhead
  simpa using hhead

theorem not_mem_lastLine (text : List CodePoint) : ('\n' : CodePoint) ∉ lastLine text := by
  intro h
  simpa using List.mem_rtakeWhile_imp h

/-- There is one way to part a text after its last line feed. -/
theorem lastLine_append (hearlier : ∀ c ∈ earlier.getLast?, c = '\n')
    (honLine : ('\n' : CodePoint) ∉ onLine) :
    lastLine (earlier ++ onLine) = onLine := by
  have hline : ∀ c ∈ onLine.reverse, decide (c ≠ '\n') = true := by
    intro c hc
    exact decide_eq_true fun heq => honLine (heq ▸ List.mem_reverse.1 hc)
  have hnone : earlier.reverse.takeWhile (· ≠ ('\n' : CodePoint)) = [] := by
    rw [← List.head?_reverse] at hearlier
    cases hreverse : earlier.reverse with
    | nil => rfl
    | cons c rest =>
      rw [hreverse] at hearlier
      simp [hearlier c rfl]
  unfold lastLine List.rtakeWhile
  rw [List.reverse_append, List.takeWhile_append_of_pos hline, hnone, List.append_nil,
    List.reverse_reverse]

theorem lastLine_append_of_not_mem (text : List CodePoint) (h : ('\n' : CodePoint) ∉ onLine) :
    lastLine (text ++ onLine) = lastLine text ++ onLine := by
  have hline : ('\n' : CodePoint) ∉ lastLine text ++ onLine := by
    simp [h, not_mem_lastLine]
  calc lastLine (text ++ onLine)
      = lastLine (closedLines text ++ (lastLine text ++ onLine)) := by
        rw [← List.append_assoc, closedLines_append_lastLine]
    _ = lastLine text ++ onLine := lastLine_append (getLast?_closedLines text) hline

/-- The place of an offset is where the offset is. -/
theorem isAt_ofOffset (h : offset ≤ text.length) : (ofOffset text offset).IsAt text offset := by
  have hbefore : (text.take offset).length = offset := List.length_take_of_le h
  have hlast : (lastLine (text.take offset)).length ≤ offset :=
    (List.rtakeWhile_suffix _ _).length_le.trans_eq hbefore
  refine ⟨h, rfl, closedLines (text.take offset), lastLine (text.take offset), ?_⟩
  refine ⟨(closedLines_append_lastLine _).symm, getLast?_closedLines _, not_mem_lastLine _, ?_⟩
  have honLine : (lastLine (text.take offset)).length =
      ((text.take offset).reverse.takeWhile (· ≠ ('\n' : CodePoint))).length := List.length_reverse
  unfold ofOffset
  dsimp only
  rw [hbefore, ← honLine, Nat.sub_sub_self hlast]

theorem IsAt.length_lastLine (h : place.IsAt text offset) :
    (lastLine (text.take offset)).length + 1 = place.column := by
  obtain ⟨earlier, onLine, hbefore, hearlier, honLine, hlength⟩ := h.column
  rw [hbefore, lastLine_append hearlier honLine, hlength]

theorem IsAt.le {other : Nat} (h : place.IsAt text offset) (h' : place.IsAt text other) :
    other ≤ offset := by
  by_contra hlt
  obtain ⟨between, hbetween⟩ : text.take offset <+: text.take other :=
    List.take_prefix_take_left (Nat.le_of_not_le hlt)
  -- No line feed stands between two offsets on one line.
  have hline : ('\n' : CodePoint) ∉ between := by
    have hcount := h.line.trans h'.line.symm
    rw [← hbetween, List.count_append] at hcount
    exact List.count_eq_zero.1 (by omega)
  have hlength := congrArg List.length hbetween
  have hcolumn := h.length_lastLine.trans h'.length_lastLine.symm
  rw [← hbetween, lastLine_append_of_not_mem _ hline, List.length_append] at hcolumn
  rw [List.length_append, List.length_take_of_le h.le_length,
    List.length_take_of_le h'.le_length] at hlength
  omega

/-- A place is at one offset only. -/
theorem IsAt.unique {other : Nat} (h : place.IsAt text offset) (h' : place.IsAt text other) :
    offset = other := Nat.le_antisymm (h'.le h) (h.le h')

end Position

end JsonPath
