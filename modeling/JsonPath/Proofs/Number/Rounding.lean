import JsonPath.Number.Decimal
import Mathlib.Algebra.Order.Field.Rat
import Mathlib.Tactic.FieldSimp
import Mathlib.Tactic.Linarith
import Mathlib.Tactic.NormNum
import Mathlib.Tactic.Ring

/-!
# Rounding to binary64

Around each magnitude lies an interval of numbers that round to it. It reaches half way to the two
neighbours, and to these midpoints themselves if the mantissa is even. What reading a decimal
needs of the rounding is that every number of the interval comes to the magnitude.
-/

namespace JsonPath

theorem twoTo_eq (n : Nat) : twoTo n = 2 ^ n := rfl

theorem tenTo_eq (n : Nat) : tenTo n = 10 ^ n := rfl

theorem twoTo_add (a b : Nat) : twoTo (a + b) = twoTo a * twoTo b := Nat.pow_add 2 a b

theorem twoTo_fiftyTwo : twoTo 52 = 4503599627370496 := rfl

theorem twoTo_fiftyThree : twoTo 53 = 9007199254740992 := rfl

theorem twoTo_pos (n : Nat) : 0 < twoTo n := Nat.pow_pos (by decide)

theorem tenTo_pos (n : Nat) : 0 < tenTo n := Nat.pow_pos (by decide)

namespace Magnitude

/-- How far apart the magnitudes of this exponent are. -/
def spacing (m : Magnitude) : Nat := twoTo m.exponent

/-- How far down numbers round to the magnitude, in quarters of a unit. Below the least mantissa the
next magnitude is only half as far. -/
def reach (m : Magnitude) : Nat :=
  if m.mantissa = twoTo 52 ∧ m.exponent ≠ 0 then m.spacing else 2 * m.spacing

/-- The number of units is no further from the magnitude than half way to its neighbours, and nearer
than that if the mantissa is odd. -/
structure Rounds (m : Magnitude) (x : ℚ) : Prop where
  low : 4 * (m.units : ℚ) ≤ m.reach + 4 * x
  high : 4 * x ≤ 4 * (m.units : ℚ) + 2 * m.spacing
  odd : m.mantissa % 2 = 1 →
    4 * (m.units : ℚ) < m.reach + 4 * x ∧ 4 * x < 4 * (m.units : ℚ) + 2 * m.spacing

theorem spacing_pos (m : Magnitude) : 0 < m.spacing := twoTo_pos _

theorem units_eq (m : Magnitude) : m.units = m.mantissa * m.spacing := rfl

theorem reach_le (m : Magnitude) : m.reach ≤ 2 * m.spacing := by
  unfold reach
  split <;> omega

theorem reach_le_units {m : Magnitude} (hm : m.mantissa ≠ 0) : m.reach ≤ 4 * m.units := by
  have hunits : 1 * m.spacing ≤ m.units := Nat.mul_le_mul_right _ (Nat.pos_of_ne_zero hm)
  have hreach := m.reach_le
  omega

/-! ### Quotients -/

/-- The nearest number of units, where an even one takes both of its midpoints. -/
theorem nearestQuotient_eq {numerator unit n : Nat} (hunit : 0 < unit)
    (hlow : 2 * (n * unit) ≤ 2 * numerator + unit) (hhigh : 2 * numerator ≤ 2 * (n * unit) + unit)
    (hodd : n % 2 = 1 →
      2 * (n * unit) < 2 * numerator + unit ∧ 2 * numerator < 2 * (n * unit) + unit) :
    nearestQuotient numerator unit = n := by
  have hdiv := Nat.div_add_mod numerator unit
  have hmod := Nat.mod_lt numerator hunit
  unfold nearestQuotient
  dsimp only
  rw [Nat.mul_comm] at hdiv
  generalize numerator / unit = q at *
  generalize numerator % unit = r at *
  have hq : n = q ∨ n = q + 1 := by
    rcases Nat.lt_trichotomy n q with h | h | h
    · have hmul : (n + 1) * unit ≤ q * unit := Nat.mul_le_mul_right _ h
      rw [Nat.add_mul] at hmul
      omega
    · exact .inl h
    · rcases Nat.eq_or_lt_of_le h with h | h
      · exact .inr h.symm
      · have hmul : (q + 2) * unit ≤ n * unit := Nat.mul_le_mul_right _ h
        rw [Nat.add_mul] at hmul
        omega
  have heven (hhalf : 2 * r = unit) : n % 2 = 0 := by
    by_contra hne
    have hstrict := hodd (by omega)
    rcases hq with rfl | rfl
    · omega
    · rw [Nat.add_mul] at hstrict
      omega
  rcases hq with rfl | rfl
  · split
    · rfl
    · split
      · omega
      · have := heven (by omega)
        omega
  · rw [Nat.add_mul] at hlow hhigh
    split
    · omega
    · split
      · rfl
      · have := heven (by omega)
        omega

/-! ### The magnitude of a ratio -/

theorem ofParts?_self (m : Magnitude) : ofParts? m.mantissa m.exponent = some m :=
  dif_pos ⟨m.mantissa_lt, m.exponent_le, m.normal⟩

/-- The exponent that is found for a number between two powers of two. -/
theorem log2_sub_eq {n exponent : Nat} (hhigh : n < twoTo (53 + exponent))
    (hlow : exponent = 0 ∨ twoTo (52 + exponent) ≤ n) : n.log2 - 52 = exponent := by
  rcases hlow with rfl | hlow
  · by_cases hn : n = 0
    · subst hn
      rfl
    · have hlt : n.log2 < 53 := (Nat.log2_lt hn).2 hhigh
      omega
  · have hn : n ≠ 0 := Nat.ne_of_gt (Nat.lt_of_lt_of_le (twoTo_pos _) hlow)
    have hlt : n.log2 < 53 + exponent := (Nat.log2_lt hn).2 hhigh
    have hle : 52 + exponent ≤ n.log2 := (Nat.le_log2 hn).2 hlow
    omega

variable {m : Magnitude} {numerator denominator : Nat}

/-- The interval of a magnitude for a ratio, without division. -/
theorem rounds_div_iff {s : Nat} (hpos : 0 < denominator) :
    m.Rounds (s / denominator) ↔
      4 * (m.units * denominator) ≤ m.reach * denominator + 4 * s ∧
      4 * s ≤ 4 * (m.units * denominator) + 2 * (m.spacing * denominator) ∧
      (m.mantissa % 2 = 1 →
        4 * (m.units * denominator) < m.reach * denominator + 4 * s ∧
        4 * s < 4 * (m.units * denominator) + 2 * (m.spacing * denominator)) := by
  have hpos' : (0 : ℚ) < denominator := by exact_mod_cast hpos
  have hscaled (a b c d : Nat) : (a : ℚ) + b * (s / denominator) ≤ c + d * (s / denominator) ↔
      a * denominator + b * s ≤ c * denominator + d * s := by
    rw [← mul_le_mul_iff_of_pos_right hpos', ← @Nat.cast_le ℚ]
    push_cast
    field_simp
  have hlow := hscaled (4 * m.units) 0 m.reach 4
  have hhigh := hscaled 0 4 (4 * m.units + 2 * m.spacing) 0
  have hlow' := not_congr (hscaled m.reach 4 (4 * m.units) 0)
  have hhigh' := not_congr (hscaled (4 * m.units + 2 * m.spacing) 0 0 4)
  push_cast at hlow hhigh hlow' hhigh'
  simp only [not_le, zero_mul, zero_add, add_zero, add_mul, mul_assoc] at hlow hhigh hlow' hhigh'
  rw [← hlow, ← hhigh, ← hlow', ← hhigh']
  exact ⟨fun h => ⟨h.low, h.high, h.odd⟩, fun h => ⟨h.1, h.2.1, h.2.2⟩⟩

/-- Below a power of two the numbers are counted in units of half the size, of which there are one
too many for a mantissa when they are rounded up to that power. -/
theorem ofRatio?_below_power {s exponent : Nat} (hpos : 0 < denominator)
    (hs : numerator * twoTo 1074 = s) (hbelow : s < twoTo 52 * (denominator * twoTo (exponent + 1)))
    (hlow : 4 * (twoTo 52 * (denominator * twoTo (exponent + 1))) ≤
      4 * s + denominator * twoTo (exponent + 1)) :
    ofRatio? numerator denominator = ofParts? (twoTo 52) (exponent + 1) := by
  have hdouble : denominator * twoTo (exponent + 1) = 2 * (denominator * twoTo exponent) := by
    rw [twoTo_eq, twoTo_eq, Nat.pow_succ]
    ring
  have hscale (n : Nat) : twoTo (n + exponent) * denominator =
      twoTo n * (denominator * twoTo exponent) := by
    simp only [twoTo_eq, Nat.pow_add]
    ring
  have hunit : 0 < denominator * twoTo exponent := Nat.mul_pos hpos (twoTo_pos _)
  rw [hdouble, twoTo_fiftyTwo] at hbelow hlow
  have hexponent : (s / denominator).log2 - 52 = exponent := by
    refine log2_sub_eq ?_ (.inr ?_)
    · rw [Nat.div_lt_iff_lt_mul hpos, hscale, twoTo_fiftyThree]
      omega
    · rw [Nat.le_div_iff_mul_le hpos, hscale, twoTo_fiftyTwo]
      omega
  have hnearest : nearestQuotient s (denominator * twoTo exponent) = twoTo 53 := by
    rw [twoTo_fiftyThree]
    exact nearestQuotient_eq hunit (by omega) (by omega) (by omega)
  unfold ofRatio?
  dsimp only
  rw [hs, hexponent, hnearest, if_pos rfl]

/-- What rounds to a magnitude comes to it. -/
theorem ofRatio?_eq_some (hpos : 0 < denominator)
    (h : m.Rounds ((numerator * twoTo 1074 : Nat) / denominator)) :
    ofRatio? numerator denominator = some m := by
  obtain ⟨hlow, hhigh, hodd⟩ := (rounds_div_iff hpos).1 h
  have hreach := Nat.mul_le_mul_right denominator m.reach_le
  have hunits : m.units * denominator = m.mantissa * (denominator * m.spacing) := by
    rw [units_eq, Nat.mul_assoc, Nat.mul_comm m.spacing]
  have hunit : 0 < denominator * m.spacing := Nat.mul_pos hpos m.spacing_pos
  generalize hs : numerator * twoTo 1074 = s at *
  rw [hunits] at hlow hhigh hodd
  rw [Nat.mul_comm m.spacing] at hhigh hodd
  rw [Nat.mul_assoc, Nat.mul_comm m.spacing] at hreach
  by_cases hbelow : m.exponent ≠ 0 ∧ s < twoTo 52 * (denominator * m.spacing)
  · obtain ⟨exponent, hexponent⟩ : ∃ exponent, m.exponent = exponent + 1 :=
      Nat.exists_eq_succ_of_ne_zero hbelow.1
    have hnormal : twoTo 52 ≤ m.mantissa := m.normal.resolve_left hbelow.1
    have hleast : m.mantissa = twoTo 52 := by
      by_contra hne
      have hmul : (twoTo 52 + 1) * (denominator * m.spacing) ≤
          m.mantissa * (denominator * m.spacing) := Nat.mul_le_mul_right _ (by omega)
      rw [Nat.add_mul] at hmul
      omega
    have hreach : m.reach = twoTo (exponent + 1) := by
      rw [reach, if_pos ⟨hleast, hbelow.1⟩, spacing, hexponent]
    rw [hreach, hleast, spacing, hexponent, Nat.mul_comm (twoTo (exponent + 1))] at hlow
    have hbelow' := hbelow.2
    rw [spacing, hexponent] at hbelow'
    rw [ofRatio?_below_power hpos hs hbelow' (by omega), ← hleast, ← hexponent, ofParts?_self]
  · have hexponent : (s / denominator).log2 - 52 = m.exponent := by
      have hscale (n : Nat) : twoTo (n + m.exponent) * denominator =
          twoTo n * (denominator * m.spacing) := by
        simp only [twoTo_eq, Nat.pow_add, spacing]
        ring
      refine log2_sub_eq ?_ ?_
      · rw [Nat.div_lt_iff_lt_mul hpos, hscale]
        have hmul := Nat.mul_le_mul_right (denominator * m.spacing) m.mantissa_lt
        rw [Nat.succ_mul] at hmul
        omega
      · rw [Nat.le_div_iff_mul_le hpos, hscale]
        omega
    have hnearest : nearestQuotient s (denominator * twoTo m.exponent) = m.mantissa :=
      nearestQuotient_eq hunit (by unfold spacing at *; omega)
        (by unfold spacing at *; omega) (by unfold spacing at *; omega)
    unfold ofRatio?
    dsimp only
    rw [hs, hexponent, hnearest, if_neg (Nat.ne_of_lt m.mantissa_lt), ofParts?_self]

end Magnitude

end JsonPath
