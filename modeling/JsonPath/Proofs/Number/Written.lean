import JsonPath.Number.Layout
import JsonPath.Proofs.Number.Reading

/-!
# The text of a binary64 number

What is written for a finite number is a numeral with a point or an exponent that reads as this
number. Wherever the layout sets the point, the value is that of the shortest decimal.
-/

namespace JsonPath

open Numeral (minus FractionSpelled SignSpelled ExponentSpelled)

/-- The text is one of a number with a point or an exponent, of this sign and size, that starts with
a zero only where one has to stand. -/
def WritesDecimal (negative : Bool) (size : ℚ) (text : List CodePoint) : Prop :=
  ∃ n : Numeral, n.Spells text ∧ n.negative = negative ∧ n.isInteger = false ∧
    (n.whole = ['0'] ∨ n.whole.head? ≠ some '0') ∧ n.decimal.size = size

theorem Numeral.exponent_decimal {negative negative' : Bool} {whole digits : List CodePoint}
    {fraction? : Option (List CodePoint)} :
    (Numeral.mk negative whole fraction? (some (negative', digits))).decimal.exponent =
      (if negative' then -(Unicode.digitsValue digits : Int) else Unicode.digitsValue digits) -
        (fraction?.getD []).length := by
  cases negative' <;> rfl

/-- Digits that start with no zero. -/
structure Significant (digits : List CodePoint) : Prop where
  isDigit : ∀ c ∈ digits, c.isDigit = true
  ne_nil : digits ≠ []
  head : digits.head? ≠ some '0'

theorem Magnitude.eq_zero (m : Magnitude) (h : m.mantissa = 0) : m = .zero := by
  obtain ⟨mantissa, exponent, hmantissa, hexponent, hnormal⟩ := m
  obtain rfl : mantissa = 0 := h
  obtain rfl : exponent = 0 := hnormal.resolve_right (Nat.not_le.2 (twoTo_pos 52))
  rfl

namespace Layout

variable {digits : List CodePoint} {negative : Bool}

theorem isDigit_zeros {n : Nat} {c : CodePoint} (h : c ∈ List.replicate n ('0' : CodePoint)) :
    c.isDigit = true := by
  rw [List.eq_of_mem_replicate h]
  rfl

/-- Plain notation with a point after zero. -/
theorem writesDecimal_zero (h : Significant digits) (zeros : Nat) :
    WritesDecimal negative (Unicode.digitsValue digits * 10 ^ (-(zeros + digits.length : Int)))
      (minus negative ++ ('0' : CodePoint) :: '.' ::
        (List.replicate zeros ('0' : CodePoint) ++ digits)) := by
  have hdigits : ∀ c ∈ List.replicate zeros ('0' : CodePoint) ++ digits,
      Unicode.isDigit c = true := by
    intro c hc
    rcases List.mem_append.1 hc with hc | hc
    · exact Unicode.isDigit_of_isDigit (isDigit_zeros hc)
    · exact Unicode.isDigit_of_isDigit (h.isDigit c hc)
  refine ⟨⟨negative, ['0'], some (List.replicate zeros ('0' : CodePoint) ++ digits), none⟩,
    ⟨by simp, ?_, ?_⟩, rfl, rfl, .inl rfl, ?_⟩
  · intro c hc
    rw [List.mem_singleton.1 hc]
    rfl
  · exact ⟨_, [], .present (by simp [h.ne_nil]) hdigits, .absent, by simp⟩
  · have hvalue : Unicode.digitsValue
        ([('0' : CodePoint)] ++ (List.replicate zeros ('0' : CodePoint) ++ digits)) =
          Unicode.digitsValue digits := by
      have hzero := Unicode.digitsValue_zeros (zeros + 1)
      rw [List.replicate_succ] at hzero
      rw [← List.append_assoc, Unicode.digitsValue_append, List.singleton_append, hzero]
      omega
    simp only [Decimal.size, Numeral.decimal, Option.getD_some, hvalue, List.length_append,
      List.length_replicate]
    push_cast
    rw [zero_sub]

/-- Plain notation with a point behind the digits. -/
theorem writesDecimal_integer (h : Significant digits) (zeros : Nat) :
    WritesDecimal negative (Unicode.digitsValue digits * 10 ^ (zeros : Int))
      (minus negative ++ (digits ++ List.replicate zeros ('0' : CodePoint) ++
        [('.' : CodePoint), '0'])) := by
  have hdigits : ∀ c ∈ digits ++ List.replicate zeros ('0' : CodePoint),
      Unicode.isDigit c = true := by
    intro c hc
    rcases List.mem_append.1 hc with hc | hc
    · exact Unicode.isDigit_of_isDigit (h.isDigit c hc)
    · exact Unicode.isDigit_of_isDigit (isDigit_zeros hc)
  refine ⟨⟨negative, digits ++ List.replicate zeros ('0' : CodePoint), some ['0'], none⟩,
    ⟨by simp [h.ne_nil], hdigits, ?_⟩, rfl, rfl, .inr ?_, ?_⟩
  · refine ⟨_, [], .present (by simp) ?_, .absent, by simp⟩
    intro c hc
    rw [List.mem_singleton.1 hc]
    rfl
  · obtain ⟨c, cs, rfl⟩ := List.exists_cons_of_ne_nil h.ne_nil
    simpa using h.head
  · have hvalue : Unicode.digitsValue
        (digits ++ List.replicate zeros ('0' : CodePoint) ++ [('0' : CodePoint)]) =
          Unicode.digitsValue digits * 10 ^ (zeros + 1) := by
      have hzero := Unicode.digitsValue_zeros (zeros + 1)
      calc Unicode.digitsValue
            (digits ++ List.replicate zeros ('0' : CodePoint) ++ [('0' : CodePoint)])
        _ = Unicode.digitsValue (digits ++ List.replicate (zeros + 1) ('0' : CodePoint)) := by
          rw [List.append_assoc, ← List.replicate_succ']
        _ = Unicode.digitsValue digits * 10 ^ (zeros + 1) := by
          rw [Unicode.digitsValue_append, hzero, List.length_replicate, Nat.add_zero]
    simp only [Decimal.size, Numeral.decimal, Option.getD_some, hvalue, List.length_singleton]
    push_cast
    rw [zpow_natCast, pow_succ]
    norm_num
    ring

/-- Plain notation with a point among the digits. -/
theorem writesDecimal_point (h : Significant digits) {before : Nat} (hpos : 0 < before)
    (hlt : before < digits.length) :
    WritesDecimal negative (Unicode.digitsValue digits * 10 ^ (before - digits.length : Int))
      (minus negative ++ (digits.take before ++ ('.' : CodePoint) :: digits.drop before)) := by
  have hdigits : ∀ c ∈ digits, Unicode.isDigit c = true :=
    fun c hc => Unicode.isDigit_of_isDigit (h.isDigit c hc)
  refine ⟨⟨negative, digits.take before, some (digits.drop before), none⟩, ⟨?_, ?_, ?_⟩, rfl, rfl,
    .inr ?_, ?_⟩
  · exact List.ne_nil_of_length_pos (by rw [List.length_take]; omega)
  · exact fun c hc => hdigits c (List.mem_of_mem_take hc)
  · exact ⟨_, [], .present (List.ne_nil_of_length_pos (by rw [List.length_drop]; omega))
      (fun c hc => hdigits c (List.mem_of_mem_drop hc)), .absent, by simp⟩
  · obtain ⟨c, cs, rfl⟩ := List.exists_cons_of_ne_nil h.ne_nil
    obtain ⟨n, rfl⟩ := Nat.exists_eq_succ_of_ne_zero (Nat.ne_of_gt hpos)
    simpa using h.head
  · simp only [Decimal.size, Numeral.decimal, Option.getD_some, List.take_append_drop,
      List.length_drop]
    rw [Nat.cast_sub hlt.le]
    congr 2
    omega

theorem writesDecimal_plain (h : Significant digits) (before : Int) :
    WritesDecimal negative (Unicode.digitsValue digits * 10 ^ (before - digits.length))
      (minus negative ++ plain digits before) := by
  unfold plain
  split
  next hbefore =>
    obtain ⟨zeros, hzeros⟩ := Int.exists_eq_neg_ofNat hbefore
    have hexponent : before - digits.length = -(zeros + digits.length : Int) := by omega
    rw [hexponent, hzeros, Int.neg_neg, Int.toNat_natCast]
    exact writesDecimal_zero h zeros
  next hbefore =>
    obtain ⟨n, rfl⟩ := Int.eq_ofNat_of_zero_le (Int.le_of_lt (Int.not_le.1 hbefore))
    rw [Int.toNat_natCast]
    split
    next hlength =>
      have hexponent : (n : Int) - digits.length = (n - digits.length : Nat) := by omega
      rw [hexponent]
      exact writesDecimal_integer h _
    next hlength =>
      exact writesDecimal_point h (by omega) (by omega)

/-! ### Scientific notation -/

theorem isDigit_of_mem_padded {zeros n : Nat} {c : CodePoint}
    (h : c ∈ List.replicate zeros ('0' : CodePoint) ++ Text.digits 10 n) :
    Unicode.isDigit c = true := by
  rcases List.mem_append.1 h with hc | hc
  · exact Unicode.isDigit_of_isDigit (isDigit_zeros hc)
  · exact Unicode.isDigit_of_isDigit (isDigit_of_mem_digits hc)

theorem digitsValue_padded (zeros n : Nat) :
    Unicode.digitsValue (List.replicate zeros ('0' : CodePoint) ++ Text.digits 10 n) = n := by
  rw [Unicode.digitsValue_append, Unicode.digitsValue_zeros, digitsValue_digits]
  omega

/-- The digits after the first are the fraction, if there are any. -/
theorem fractionSpelled_tail {c : CodePoint} {cs : List CodePoint}
    (h : ∀ d ∈ cs, Unicode.isDigit d = true) :
    ∃ fraction?, fraction?.getD [] = cs ∧ FractionSpelled fraction?
      (if (c :: cs).length ≤ 1 then [] else '.' :: (c :: cs).drop 1) := by
  by_cases hcs : cs = []
  · subst hcs
    exact ⟨none, rfl, .absent⟩
  · rw [if_neg (by simpa using hcs)]
    exact ⟨some cs, rfl, .present hcs h⟩

theorem signSpelled_exponent (exponent : Int) :
    SignSpelled (decide (exponent < 0)) [if exponent < 0 then '-' else '+'] := by
  by_cases hnegative : exponent < 0
  · simpa [hnegative] using SignSpelled.minus
  · simpa [hnegative] using SignSpelled.plus

theorem writesDecimal_scientific (layout : Layout) (h : Significant digits) (exponent : Int) :
    WritesDecimal negative (Unicode.digitsValue digits * 10 ^ (exponent + 1 - digits.length))
      (minus negative ++ layout.scientific digits exponent) := by
  obtain ⟨c, cs, rfl⟩ := List.exists_cons_of_ne_nil h.ne_nil
  have hdigits : ∀ d ∈ c :: cs, Unicode.isDigit d = true :=
    fun d hd => Unicode.isDigit_of_isDigit (h.isDigit d hd)
  obtain ⟨fraction?, hfraction, hspelled⟩ :=
    fractionSpelled_tail (c := c) fun d hd => hdigits d (List.mem_cons_of_mem c hd)
  obtain ⟨zeros, hzeros⟩ : ∃ zeros : Nat, zeros =
    layout.exponentDigits - (Text.digits 10 exponent.natAbs).length := ⟨_, rfl⟩
  obtain ⟨size, hsize⟩ : ∃ size, size =
    List.replicate zeros ('0' : CodePoint) ++ Text.digits 10 exponent.natAbs := ⟨_, rfl⟩
  have hsizeDigits : ∀ d ∈ size, Unicode.isDigit d = true :=
    fun d hd => isDigit_of_mem_padded (hsize ▸ hd)
  have hvalue : Unicode.digitsValue size = exponent.natAbs := hsize ▸ digitsValue_padded _ _
  have hsign := signSpelled_exponent exponent
  refine ⟨⟨negative, [c], fraction?, some (decide (exponent < 0), size)⟩, ⟨by simp, ?_, ?_⟩,
    rfl, ?_, .inr ?_, ?_⟩
  · intro d hd
    rw [List.mem_singleton.1 hd]
    exact hdigits c List.mem_cons_self
  · refine ⟨_, _, hspelled, .present (.inl rfl) hsign (by simp [hsize]) hsizeDigits, ?_⟩
    simp [scientific, hsize, hzeros]
  · simp [Numeral.isInteger]
  · simpa using h.head
  · have hexponent : (if exponent < 0 then -(exponent.natAbs : Int) else exponent.natAbs) =
        exponent := by
      split <;> omega
    rw [Decimal.size, Numeral.exponent_decimal, hfraction, hvalue]
    simp only [Numeral.decimal, hfraction, List.singleton_append, decide_eq_true_eq, hexponent,
      List.length_cons]
    congr 2
    omega

/-! ### Significant digits -/

theorem append_zeros_eq (written : List CodePoint) :
    ∃ zeros, (written.reverse.dropWhile (· == ('0' : CodePoint))).reverse ++
        List.replicate zeros ('0' : CodePoint) =
      written := by
  refine ⟨(written.reverse.takeWhile (· == ('0' : CodePoint))).length, ?_⟩
  have hzeros : written.reverse.takeWhile (· == ('0' : CodePoint)) =
      List.replicate (written.reverse.takeWhile (· == ('0' : CodePoint))).length
        ('0' : CodePoint) := by
    refine List.eq_replicate_iff.2 ⟨rfl, fun c hc => ?_⟩
    simpa using List.all_eq_true.1 List.all_takeWhile c hc
  rw [← List.reverse_replicate, ← hzeros, ← List.reverse_append, List.takeWhile_append_dropWhile,
    List.reverse_reverse]

/-- What is written for a decimal has its value. -/
theorem writesDecimal_decimal (layout : Layout) {coefficient : Nat} (hne : coefficient ≠ 0)
    (exponent : Int) :
    WritesDecimal negative (coefficient * 10 ^ exponent)
      (minus negative ++ layout.decimal coefficient exponent) := by
  obtain ⟨zeros, hzeros⟩ := append_zeros_eq (Text.digits 10 coefficient)
  unfold decimal
  dsimp only
  generalize (Text.digits 10 coefficient).reverse.dropWhile (· == ('0' : CodePoint)) =
    reversed at hzeros ⊢
  generalize reversed.reverse = digits at hzeros ⊢
  have hdigits : Significant digits := by
    have hhead := head?_digits hne
    refine ⟨fun c hc => isDigit_of_mem_digits (hzeros ▸ List.mem_append_left _ hc), ?_, ?_⟩
    · rintro rfl
      rw [← hzeros, List.nil_append] at hhead
      cases zeros with
      | zero => exact Text.digits_ne_nil _ _ hzeros.symm
      | succ n => exact hhead rfl
    · intro hzero
      rw [← hzeros] at hhead
      obtain ⟨c, cs, rfl⟩ :=
        List.exists_cons_of_ne_nil (List.ne_nil_of_mem (List.mem_of_head? hzero))
      exact hhead hzero
  have hlength : (Text.digits 10 coefficient).length = digits.length + zeros := by
    rw [← hzeros, List.length_append, List.length_replicate]
  have hvalue : (coefficient : ℚ) * 10 ^ exponent =
      Unicode.digitsValue digits * 10 ^
        ((digits.length + zeros : Nat) + exponent - digits.length) := by
    have hcoefficient := digitsValue_digits coefficient
    rw [← hzeros, Unicode.digitsValue_append, Unicode.digitsValue_zeros, List.length_replicate,
      Nat.add_zero] at hcoefficient
    have hexponent : ((digits.length + zeros : Nat) : Int) + exponent - digits.length =
        zeros + exponent := by
      push_cast
      omega
    rw [hexponent, zpow_add₀ (by norm_num), zpow_natCast, ← mul_assoc, ← hcoefficient]
    push_cast
    rfl
  rw [hlength, hvalue]
  split
  · exact writesDecimal_plain hdigits _
  · have hscientific : WritesDecimal negative _ _ := writesDecimal_scientific layout hdigits
      ((digits.length + zeros : Nat) + exponent - 1)
    rwa [Int.sub_add_cancel] at hscientific

/-- The text of a finite number is a numeral that reads as this number. -/
theorem reads_magnitude (layout : Layout) (negative : Bool) (m : Magnitude) :
    ∃ n : Numeral, n.Spells (minus negative ++ layout.magnitude m) ∧ n.isInteger = false ∧
      (n.whole = ['0'] ∨ n.whole.head? ≠ some '0') ∧ n.decimal.toDouble = .finite negative m := by
  unfold magnitude
  split
  next hzero =>
    refine ⟨⟨negative, ['0'], some ['0'], none⟩, ⟨by simp, ?_, ?_⟩, rfl, .inl rfl, ?_⟩
    · intro c hc
      rw [List.mem_singleton.1 hc]
      rfl
    · refine ⟨_, [], .present (by simp) ?_, .absent, rfl⟩
      intro c hc
      rw [List.mem_singleton.1 hc]
      rfl
    · rw [m.eq_zero hzero]
      rfl
  next hne =>
    have hround := m.rounds_shortest hne
    have hcoefficient : m.shortest.1 ≠ 0 := by
      intro hzero
      have hhalf := hround.half_le hne
      rw [hzero, Nat.cast_zero, zero_mul, zero_mul, mul_zero] at hhalf
      exact absurd hhalf (not_le_of_gt one_pos)
    obtain ⟨n, hspells, hnegative, hinteger, hwhole, hsize⟩ : WritesDecimal negative _ _ :=
      writesDecimal_decimal layout hcoefficient m.shortest.2
    rw [← hsize] at hround
    refine ⟨n, hspells, hinteger, hwhole, ?_⟩
    rw [Decimal.toDouble_of_rounds hne hround, ← hnegative]
    rfl

end Layout

end JsonPath
