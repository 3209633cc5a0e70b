import JsonPath.Proofs.Number.Shortest

/-!
# Reading a decimal

A decimal in the interval of a magnitude is read as this magnitude. The bounds beyond which no power
is computed at all lie outside of every interval.
-/

namespace JsonPath

theorem twoTo_one : twoTo 1 = 2 := rfl

theorem twoTo_le_twoTo {a b : Nat} (h : a ≤ b) : twoTo a ≤ twoTo b :=
  Nat.pow_le_pow_right (by decide) h

theorem twoTo_le_tenTo_least : twoTo 1075 ≤ tenTo 330 := by decide +kernel

theorem twoTo_le_tenTo_greatest : twoTo 1024 ≤ tenTo 310 := by decide +kernel

attribute [local irreducible] twoTo tenTo

namespace Magnitude

variable {m : Magnitude}

theorem one_le_spacing (m : Magnitude) : (1 : ℚ) ≤ m.spacing := by
  exact_mod_cast m.spacing_pos

theorem spacing_le_units (hm : m.mantissa ≠ 0) : (m.spacing : ℚ) ≤ m.units := by
  have hle : 1 * m.spacing ≤ m.units := Nat.mul_le_mul_right _ (Nat.pos_of_ne_zero hm)
  rw [Nat.one_mul] at hle
  exact_mod_cast hle

theorem Rounds.half_le {x : ℚ} (h : m.Rounds x) (hm : m.mantissa ≠ 0) : 1 ≤ 2 * x := by
  have hlow := h.low
  have hreach : (m.reach : ℚ) ≤ 2 * m.spacing := by exact_mod_cast m.reach_le
  have hspacing := m.one_le_spacing
  have hunits := spacing_le_units hm
  linarith

theorem Rounds.lt {x : ℚ} (h : m.Rounds x) : x < twoTo 1024 * twoTo 1074 := by
  have hhigh := h.high
  have hspacing := m.one_le_spacing
  have hunits : (m.units : ℚ) + m.spacing ≤ twoTo 53 * twoTo 2045 := by
    have hle : m.units + m.spacing ≤ twoTo 53 * twoTo 2045 :=
      calc m.units + m.spacing
        _ = (m.mantissa + 1) * m.spacing := (Nat.succ_mul _ _).symm
        _ ≤ twoTo 53 * m.spacing := Nat.mul_le_mul_right _ m.mantissa_lt
        _ ≤ twoTo 53 * twoTo 2045 := Nat.mul_le_mul_left _ (twoTo_le_twoTo m.exponent_le)
    exact_mod_cast hle
  have hpower : (twoTo 53 : ℚ) * twoTo 2045 = twoTo 1024 * twoTo 1074 := by
    have hadd : twoTo 53 * twoTo 2045 = twoTo 1024 * twoTo 1074 := by
      rw [← twoTo_add, ← twoTo_add]
    exact_mod_cast hadd
  linarith

end Magnitude

namespace Decimal

/-- The value, but for the sign. -/
def size (d : Decimal) : ℚ := d.coefficient * 10 ^ d.exponent

variable {d : Decimal} {m : Magnitude}

theorem size_lt (d : Decimal) : d.size < 10 ^ (decimalLength d.coefficient + d.exponent) := by
  have hlt : (d.coefficient : ℚ) < 10 ^ decimalLength d.coefficient := by
    exact_mod_cast lt_pow_decimalLength d.coefficient
  have hpos : (0 : ℚ) < 10 ^ d.exponent := zpow_pos (by norm_num) _
  rw [zpow_add₀ (by norm_num), zpow_natCast]
  exact mul_lt_mul_of_pos_right hlt hpos

theorem le_size (h : d.coefficient ≠ 0) :
    10 ^ (decimalLength d.coefficient + d.exponent - 1) ≤ d.size := by
  have hle : (10 : ℚ) ^ (decimalLength d.coefficient - 1) ≤ d.coefficient := by
    exact_mod_cast pow_decimalLength_le h
  have hpos : (0 : ℚ) < 10 ^ d.exponent := zpow_pos (by norm_num) _
  have hlength : 0 < decimalLength d.coefficient := Nat.length_toDigits_pos
  have hexponent : (decimalLength d.coefficient : Int) + d.exponent - 1 =
      (decimalLength d.coefficient - 1 : Nat) + d.exponent := by omega
  rw [hexponent, zpow_add₀ (by norm_num), zpow_natCast]
  exact mul_le_mul_of_nonneg_right hle hpos.le

/-! ### The powers of ten for which nothing is computed

A decimal that rounds to a magnitude with digits is neither as small nor as large as those that are
read as zero and as infinity at once. -/

theorem coefficient_ne_zero_of_rounds (hm : m.mantissa ≠ 0) (h : m.Rounds (d.size * twoTo 1074)) :
    d.coefficient ≠ 0 := by
  intro hzero
  have hhalf := h.half_le hm
  rw [size, hzero] at hhalf
  norm_num at hhalf

theorem least_of_rounds (hm : m.mantissa ≠ 0) (h : m.Rounds (d.size * twoTo 1074)) :
    -330 ≤ decimalLength d.coefficient + d.exponent := by
  by_contra hlt
  have hpos : (0 : ℚ) < twoTo 1074 := by exact_mod_cast twoTo_pos 1074
  have hhalf := h.half_le hm
  have hsize : d.size < 10 ^ (-330 : Int) :=
    calc d.size
      _ < 10 ^ (decimalLength d.coefficient + d.exponent) := d.size_lt
      _ ≤ 10 ^ (-330 : Int) := zpow_le_zpow_right₀ (by norm_num) (by omega)
  have hten : (10 : ℚ) ^ (-330 : Int) * twoTo 1075 ≤ 1 := by
    have hle : (twoTo 1075 : ℚ) ≤ tenTo 330 := by exact_mod_cast twoTo_le_tenTo_least
    rw [cast_tenTo] at hle
    rw [zpow_neg, inv_mul_le_iff₀ (zpow_pos (by norm_num) _), mul_one]
    exact hle
  have htwo : (twoTo 1075 : ℚ) = 2 * twoTo 1074 := by
    have hadd : twoTo 1075 = 2 * twoTo 1074 := by
      rw [Nat.mul_comm, ← twoTo_one, ← twoTo_add]
    exact_mod_cast hadd
  have hmul := mul_lt_mul_of_pos_right hsize hpos
  rw [htwo] at hten
  linarith

theorem greatest_of_rounds (hm : m.mantissa ≠ 0) (h : m.Rounds (d.size * twoTo 1074)) :
    decimalLength d.coefficient + d.exponent ≤ 310 := by
  by_contra hlt
  have hpos : (0 : ℚ) < twoTo 1074 := by exact_mod_cast twoTo_pos 1074
  have hten : (twoTo 1024 : ℚ) ≤ 10 ^ (310 : Int) := by
    have hle : (twoTo 1024 : ℚ) ≤ tenTo 310 := by exact_mod_cast twoTo_le_tenTo_greatest
    rwa [cast_tenTo] at hle
  have hsize : (twoTo 1024 : ℚ) ≤ d.size :=
    calc (twoTo 1024 : ℚ)
      _ ≤ 10 ^ (310 : Int) := hten
      _ ≤ 10 ^ (decimalLength d.coefficient + d.exponent - 1) :=
        zpow_le_zpow_right₀ (by norm_num) (by omega)
      _ ≤ d.size := le_size (coefficient_ne_zero_of_rounds hm h)
  have hmul := mul_le_mul_of_nonneg_right hsize hpos.le
  have hlt := h.lt
  linarith

/-! ### Reading -/

theorem ofRatio_of_rounds (h : m.Rounds (d.size * twoTo 1074)) {numerator denominator : Nat}
    (hdenominator : 0 < denominator) (hsize : d.size = numerator / denominator) :
    Double.ofRatio d.negative numerator denominator = .finite d.negative m := by
  have hsome : Magnitude.ofRatio? numerator denominator = some m := by
    refine Magnitude.ofRatio?_eq_some hdenominator ?_
    rw [hsize] at h
    push_cast
    rwa [div_mul_eq_mul_div] at h
  rw [Double.ofRatio, hsome]
  rfl

/-- What rounds to a magnitude reads as it. -/
theorem toDouble_of_rounds (hm : m.mantissa ≠ 0) (h : m.Rounds (d.size * twoTo 1074)) :
    d.toDouble = .finite d.negative m := by
  have hcoefficient := coefficient_ne_zero_of_rounds hm h
  have hleast := least_of_rounds hm h
  have hgreatest := greatest_of_rounds hm h
  unfold toDouble
  dsimp only
  rw [if_neg (by omega), if_neg (by omega)]
  split
  next hexponent =>
    refine ofRatio_of_rounds h Nat.one_pos ?_
    obtain ⟨n, hn⟩ := Int.eq_ofNat_of_zero_le hexponent
    rw [size, hn, Int.toNat_natCast]
    push_cast
    rw [cast_tenTo, div_one]
  next hexponent =>
    refine ofRatio_of_rounds h (tenTo_pos _) ?_
    obtain ⟨n, hn⟩ := Int.exists_eq_neg_ofNat (Int.le_of_lt (Int.not_le.1 hexponent))
    rw [size, hn, Int.neg_neg, Int.toNat_natCast, cast_tenTo, zpow_neg, div_eq_mul_inv]

end Decimal

end JsonPath
