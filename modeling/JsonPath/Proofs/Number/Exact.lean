import JsonPath.Number
import Mathlib.Algebra.Order.Field.Rat
import Mathlib.Order.WithBot
import Mathlib.Tactic.Positivity

/-!
# Numbers by their exact values

The value of a number is a rational number or one of the two infinities, whichever way the number is
stored. The places on the number line, by which numbers are compared, are these values in units of
`2 ^ -1074`, so numbers are equal and come before one another as their values do.
-/

namespace JsonPath

/-- The exact value of a number. A NaN has none. -/
def Number.value? : Number → Option (WithBot (WithTop ℚ))
  | integer n => some ((n : ℚ) : WithTop ℚ)
  | double (.finite negative size) =>
    let magnitude : ℚ := size.mantissa * 2 ^ ((size.exponent : ℤ) - 1074)
    some ((if negative then -magnitude else magnitude : ℚ) : WithTop ℚ)
  | double (.infinite negative) => some (if negative then ⊥ else ⊤)
  | double .nan => none

/-- The value at a place. -/
def Place.value : Place → WithBot (WithTop ℚ)
  | .lowest => ⊥
  | .at units => ((units / 2 ^ 1074 : ℚ) : WithTop ℚ)
  | .highest => ⊤

namespace Place

theorem value_at_lt_iff {a b : ℤ} : (Place.at a).value < (Place.at b).value ↔ a < b := by
  have hpos : (0 : ℚ) < 2 ^ 1074 := by positivity
  simp only [value, WithBot.coe_lt_coe, WithTop.coe_lt_coe, div_lt_div_iff_of_pos_right hpos,
    Int.cast_lt]

theorem before_iff {p q : Place} : p.before q = true ↔ p.value < q.value := by
  cases p with
  | lowest => cases q <;> simp [before, value]
  | «at» a =>
    cases q with
    | lowest => simp [before, value]
    | «at» b => rw [value_at_lt_iff, before, decide_eq_true_iff]
    | highest => exact iff_of_true rfl (WithBot.coe_lt_coe.2 (WithTop.coe_lt_top _))
  | highest => cases q <;> simp [before, value]

theorem value_injective : Function.Injective value := by
  intro p q h
  have hleft : ¬ p.before q = true := fun hpq => (before_iff.1 hpq).ne h
  have hright : ¬ q.before p = true := fun hqp => (before_iff.1 hqp).ne' h
  cases p <;> cases q <;> simp [before] at hleft hright ⊢
  omega

end Place

namespace Number

variable {m n : Number}

theorem cast_twoTo (k : ℕ) : (twoTo k : ℚ) = 2 ^ k := Nat.cast_pow 2 k

theorem cast_units (size : Magnitude) :
    (size.mantissa : ℚ) * 2 ^ ((size.exponent : ℤ) - 1074) = size.units / 2 ^ 1074 := by
  have hpow : (2 : ℚ) ^ ((size.exponent : ℤ) - 1074) = 2 ^ size.exponent / 2 ^ 1074 := by
    rw [zpow_sub₀ two_ne_zero, zpow_natCast]
    rfl
  have hunits : (size.units : ℚ) = size.mantissa * 2 ^ size.exponent := by
    rw [Magnitude.units, Nat.cast_mul, cast_twoTo]
  rw [hpow, hunits, mul_div_assoc]

theorem value?_eq (n : Number) : n.value? = n.place?.map Place.value := by
  have hne : (2 : ℚ) ^ 1074 ≠ 0 := by positivity
  match n with
  | integer n =>
    have hvalue : ((n * twoTo 1074 : ℤ) : ℚ) / 2 ^ 1074 = n := by
      rw [Int.cast_mul, Int.cast_natCast, cast_twoTo, mul_div_cancel_right₀ _ hne]
    exact congrArg (fun q : ℚ => some ((q : WithTop ℚ) : WithBot (WithTop ℚ))) hvalue.symm
  | double (.finite negative size) =>
    have hvalue : (((if negative then -size.units else size.units : ℤ) : ℚ) / 2 ^ 1074) =
        if negative then -(size.units / 2 ^ 1074 : ℚ) else size.units / 2 ^ 1074 := by
      cases negative
      · rfl
      · rw [if_pos rfl, if_pos rfl, Int.cast_neg, neg_div]
        rfl
    rw [value?, place?, Option.map_some, Place.value, hvalue, cast_units]
  | double (.infinite negative) => cases negative <;> rfl
  | double .nan => rfl

/-- Numbers are the same if they have the same value. -/
theorem same_iff : m.same n = true ↔ ∃ x, m.value? = some x ∧ n.value? = some x := by
  rw [same, value?_eq, value?_eq]
  cases m.place? with
  | none => simp
  | some p =>
    cases n.place? with
    | none => simp
    | some q => simp [Place.value_injective.eq_iff, eq_comm]

/-- A number is less than another if its value is. -/
theorem less_iff : m.less n = true ↔ ∃ x y, m.value? = some x ∧ n.value? = some y ∧ x < y := by
  rw [less, value?_eq, value?_eq]
  cases m.place? with
  | none => simp
  | some p =>
    cases n.place? with
    | none => simp
    | some q => simp [Place.before_iff]

end Number

end JsonPath
