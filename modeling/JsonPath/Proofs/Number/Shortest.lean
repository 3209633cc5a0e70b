import JsonPath.Proofs.Number.Digits
import JsonPath.Proofs.Number.Rounding

/-!
# The shortest decimal reads back

A decimal is taken for a magnitude only if it lies in the interval of what rounds to it. With
seventeen digits one of the two neighbours on the grid of decimals always does, since the grid is
then finer than the magnitudes are apart, so the search for the shortest one ends with a decimal
that reads back.
-/

namespace JsonPath

theorem twoTo_add_two (n : Nat) : twoTo (n + 2) = 4 * twoTo n := by
  rw [twoTo_add, Nat.mul_comm]
  rfl

theorem twoTo_le_tenTo {a b : Nat} (h : a ≤ 3 * b) : twoTo a ≤ tenTo b :=
  calc 2 ^ a ≤ 2 ^ (3 * b) := Nat.pow_le_pow_right (by decide) h
    _ = (2 ^ 3) ^ b := Nat.pow_mul 2 3 b
    _ ≤ 10 ^ b := Nat.pow_le_pow_left (by decide) b

theorem cast_tenTo (n : Nat) : (tenTo n : ℚ) = 10 ^ (n : Int) := by
  rw [tenTo_eq, zpow_natCast]
  push_cast
  rfl

namespace Magnitude

attribute [local irreducible] twoTo tenTo

variable {m : Magnitude}

/-! ### Decimals and their intervals -/

theorem grid_pos (exponent : Int) : 0 < (grid exponent).1 ∧ 0 < (grid exponent).2 := by
  unfold grid
  split
  · exact ⟨tenTo_pos _, Nat.one_pos⟩
  · exact ⟨Nat.one_pos, tenTo_pos _⟩

/-- The grid is one of powers of ten. -/
theorem grid_div (exponent : Int) :
    ((grid exponent).1 : ℚ) / (grid exponent).2 = 10 ^ exponent := by
  unfold grid
  split
  next hexponent =>
    obtain ⟨n, rfl⟩ := Int.eq_ofNat_of_zero_le hexponent
    simp [tenTo_eq]
  next hexponent =>
    obtain ⟨n, hn⟩ := Int.exists_eq_neg_ofNat (Int.le_of_lt (Int.not_le.1 hexponent))
    subst hn
    simp [tenTo_eq]

/-- A decimal reads back if it rounds to the magnitude. -/
theorem readsBack_iff (hm : m.mantissa ≠ 0) {n : Nat} {exponent : Int} :
    m.readsBack n exponent = true ↔ m.Rounds (n * 10 ^ exponent * twoTo 1074) := by
  have hpos := (grid_pos exponent).2
  have hpoint : (n : ℚ) * 10 ^ exponent * twoTo 1074 =
      (n * (grid exponent).1 * twoTo 1074 : Nat) / (grid exponent).2 := by
    rw [← grid_div]
    push_cast
    ring
  have hreach := Nat.mul_le_mul_right (grid exponent).2 (reach_le_units hm)
  rw [hpoint, rounds_div_iff hpos]
  unfold readsBack
  dsimp only
  rw [twoTo_add_two 1074, Nat.mul_left_comm]
  generalize n * (grid exponent).1 * twoTo 1074 = s
  have hunit : twoTo m.exponent = m.spacing := rfl
  rw [hunit]
  have hreach' : (if m.mantissa = twoTo 52 ∧ m.exponent ≠ 0 then m.spacing else 2 * m.spacing) =
    m.reach := rfl
  rw [hreach', Nat.sub_mul, Nat.add_mul, Nat.mul_assoc, Nat.mul_assoc]
  rw [Nat.mul_assoc] at hreach
  split
  next heven =>
    simp only [Bool.and_eq_true, decide_eq_true_eq]
    omega
  next hodd =>
    simp only [Bool.and_eq_true, decide_eq_true_eq]
    omega

/-! ### Seventeen digits -/

theorem rounds_of_le {x : ℚ} (hle : x ≤ m.units) (hnear : 4 * ((m.units : ℚ) - x) < m.reach) :
    m.Rounds x := by
  have hspacing : (0 : ℚ) < m.spacing := by exact_mod_cast m.spacing_pos
  exact ⟨by linarith, by linarith, fun _ => ⟨by linarith, by linarith⟩⟩

theorem rounds_of_ge {x : ℚ} (hle : m.units ≤ x) (hnear : 2 * (x - m.units) < m.spacing) :
    m.Rounds x := by
  have hreach : (0 : ℚ) ≤ m.reach := by positivity
  have hreach' : (0 : ℚ) < m.reach := by
    have : 0 < m.reach := by
      unfold reach
      have := m.spacing_pos
      split <;> omega
    exact_mod_cast this
  exact ⟨by linarith, by linarith, fun _ => ⟨by linarith, by linarith⟩⟩

/-- Of the two neighbours on a grid of this fineness one rounds to the magnitude. -/
theorem rounds_below_or_above {below step : ℚ} (hlow : below ≤ m.units)
    (hhigh : m.units < below + step) (hstep : 10 ^ 16 * step ≤ m.units) :
    m.Rounds below ∨ m.Rounds (below + step) := by
  have hspacing : (0 : ℚ) < m.spacing := by exact_mod_cast m.spacing_pos
  have hunits : (m.units : ℚ) = m.mantissa * m.spacing := by exact_mod_cast m.units_eq
  have hfine : 4 * step < m.reach + 2 * m.spacing := by
    unfold reach
    split
    next hleast =>
      have hmantissa : (m.mantissa : ℚ) = 4503599627370496 := by
        exact_mod_cast hleast.1.trans twoTo_fiftyTwo
      rw [hunits, hmantissa] at hstep
      linarith
    next =>
      have hmantissa : (m.mantissa : ℚ) < 9007199254740992 := by
        exact_mod_cast twoTo_fiftyThree ▸ m.mantissa_lt
      have hlt := mul_lt_mul_of_pos_right hmantissa hspacing
      push_cast
      linarith
  by_cases hnear : 2 * (below + step - m.units) < m.spacing
  · exact .inr (rounds_of_ge (le_of_lt hhigh) hnear)
  · exact .inl (rounds_of_le hlow (by linarith))

/-- The leading digit of a magnitude is found. -/
theorem leadingExponent_le (hm : m.mantissa ≠ 0) :
    (10 : ℚ) ^ m.leadingExponent * twoTo 1074 ≤ m.units := by
  have hunits : 0 < m.units := Nat.mul_pos (Nat.pos_of_ne_zero hm) m.spacing_pos
  have hpos : (0 : ℚ) < twoTo 1074 := by exact_mod_cast twoTo_pos 1074
  have hten : (0 : ℚ) < tenTo 400 := by exact_mod_cast tenTo_pos 400
  unfold leadingExponent
  generalize hn : m.units * tenTo 400 / twoTo 1074 = n
  have hne : n ≠ 0 := by
    rw [← hn]
    refine Nat.ne_of_gt (Nat.div_pos ?_ (twoTo_pos 1074))
    exact Nat.le_trans (twoTo_le_tenTo (by decide)) (Nat.le_mul_of_pos_left _ hunits)
  have hle : (10 : ℚ) ^ (decimalLength n - 1) * twoTo 1074 ≤ m.units * tenTo 400 := by
    have hle := pow_decimalLength_le hne
    rw [← hn, Nat.le_div_iff_mul_le (twoTo_pos 1074), hn] at hle
    exact_mod_cast hle
  have hlength : 0 < decimalLength n := Nat.length_toDigits_pos
  have hexponent : (decimalLength n : Int) - 401 = (decimalLength n - 1 : Nat) - 400 := by omega
  have hpower : (10 : ℚ) ^ (400 : Int) = tenTo 400 := (cast_tenTo 400).symm
  rw [hexponent, zpow_sub₀ (by norm_num), zpow_natCast, hpower, div_mul_eq_mul_div,
    div_le_iff₀ hten]
  exact hle

/-- The numbers of the grid at and above the magnitude. -/
theorem units_between (exponent : Int) :
    let below := m.units * (grid exponent).2 / ((grid exponent).1 * twoTo 1074)
    (below : ℚ) * 10 ^ exponent * twoTo 1074 ≤ m.units ∧
      (m.units : ℚ) < below * 10 ^ exponent * twoTo 1074 + 10 ^ exponent * twoTo 1074 := by
  intro below
  obtain ⟨hnumerator, hdenominator⟩ := grid_pos exponent
  have hunit : 0 < (grid exponent).1 * twoTo 1074 := Nat.mul_pos hnumerator (twoTo_pos 1074)
  have hpos : (0 : ℚ) < (grid exponent).2 := by exact_mod_cast hdenominator
  have hle := Nat.div_mul_le_self (m.units * (grid exponent).2) ((grid exponent).1 * twoTo 1074)
  have hlt := Nat.lt_div_mul_add (a := m.units * (grid exponent).2) hunit
  have hle' : (below : ℚ) * ((grid exponent).1 * twoTo 1074) ≤ m.units * (grid exponent).2 := by
    exact_mod_cast hle
  have hlt' : (m.units : ℚ) * (grid exponent).2 <
      below * ((grid exponent).1 * twoTo 1074) + (grid exponent).1 * twoTo 1074 := by
    exact_mod_cast hlt
  rw [← grid_div]
  constructor
  · rw [mul_div_assoc', div_mul_eq_mul_div, div_le_iff₀ hpos]
    linarith
  · rw [mul_div_assoc', div_mul_eq_mul_div, div_mul_eq_mul_div, ← add_div, lt_div_iff₀ hpos]
    linarith

/-- What is found on a grid reads back. -/
theorem readsBack_of_neighbour? {exponent : Int} {found : Nat × Int}
    (h : m.neighbour? exponent = some found) : m.readsBack found.1 found.2 = true := by
  unfold neighbour? at h
  dsimp only at h
  split at h
  next hbelow habove =>
    cases h
    dsimp only
    split <;> assumption
  next hbelow _ =>
    cases h
    exact hbelow
  next _ habove =>
    cases h
    exact habove
  next => cases h

theorem neighbour?_ne_none (hm : m.mantissa ≠ 0) :
    m.neighbour? (m.leadingExponent - 16) ≠ none := by
  have hpos : (0 : ℚ) < twoTo 1074 := by exact_mod_cast twoTo_pos 1074
  have hlead := leadingExponent_le hm
  have hstep : (10 : ℚ) ^ 16 * (10 ^ (m.leadingExponent - 16) * twoTo 1074) ≤ m.units := by
    calc (10 : ℚ) ^ 16 * (10 ^ (m.leadingExponent - 16) * twoTo 1074)
      _ = 10 ^ m.leadingExponent * twoTo 1074 := by
        rw [zpow_sub₀ (by norm_num)]
        norm_cast
        ring
      _ ≤ m.units := hlead
  obtain ⟨hle, hlt⟩ := units_between (m := m) (m.leadingExponent - 16)
  have hround := rounds_below_or_above hle hlt hstep
  unfold neighbour?
  dsimp only at hround ⊢
  generalize m.units * _ / _ = below at *
  have habove : (below : ℚ) * 10 ^ (m.leadingExponent - 16) * twoTo 1074 +
      10 ^ (m.leadingExponent - 16) * twoTo 1074 =
      (below + 1 : Nat) * 10 ^ (m.leadingExponent - 16) * twoTo 1074 := by
    push_cast
    ring
  rw [habove, ← readsBack_iff hm, ← readsBack_iff hm] at hround
  split <;> simp_all

/-- The shortest decimal of a magnitude rounds to it. -/
theorem rounds_shortest (hm : m.mantissa ≠ 0) :
    m.Rounds (m.shortest.1 * 10 ^ m.shortest.2 * twoTo 1074) := by
  unfold shortest
  dsimp only
  cases hfound : (List.range 17).findSome? fun (more : Nat) =>
    m.neighbour? (m.leadingExponent - more) with
  | none =>
    have hnone := List.findSome?_eq_none_iff.1 hfound 16 (by decide)
    exact absurd hnone (neighbour?_ne_none hm)
  | some found =>
    obtain ⟨more, -, hmore⟩ := List.exists_of_findSome?_eq_some hfound
    rw [Option.getD_some]
    exact (readsBack_iff hm).1 (readsBack_of_neighbour? hmore)

end Magnitude

end JsonPath
