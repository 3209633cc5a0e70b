import JsonPath.Proofs.Canonical.Reading

/-!
# Numbers in ASCII

The grammar of numbers in the standard knows the digits of ASCII only, the lexer those of every
script. The two tests for leading zeros look for the zero of ASCII. So what passes them is a number
of the standard if it is in ASCII, and only then.
-/

namespace JsonPath

def IsAscii (cs : List CodePoint) : Prop := ∀ c ∈ cs, c.toNat < 0x80

instance (cs : List CodePoint) : Decidable (IsAscii cs) :=
  List.decidableBAll (fun c : CodePoint => c.toNat < 0x80) cs

/-- An integer of the standard: a zero, or digits without a leading zero and perhaps a sign. -/
def IsStandardInteger (cs : List CodePoint) : Prop :=
  cs = ['0'] ∨ ∃ (negative : Bool) (first : CodePoint) (digits : List CodePoint),
    cs = Numeral.minus negative ++ first :: digits ∧
    first ≠ '0' ∧ first.isDigit = true ∧ ∀ c ∈ digits, c.isDigit = true

/-- A point with digits, or nothing. -/
def IsStandardFraction (cs : List CodePoint) : Prop :=
  cs = [] ∨ ∃ digits, cs = ('.' : CodePoint) :: digits ∧ digits ≠ [] ∧
    ∀ c ∈ digits, c.isDigit = true

/-- An `e` with digits and perhaps a sign, or nothing. -/
def IsStandardExponent (cs : List CodePoint) : Prop :=
  cs = [] ∨ ∃ e sign digits, cs = e :: (sign ++ digits) ∧ (e = 'e' ∨ e = 'E') ∧
    (sign = [] ∨ sign = ['+'] ∨ sign = ['-']) ∧ digits ≠ [] ∧ ∀ c ∈ digits, c.isDigit = true

/-- A number of the standard: an integer or a negative zero, perhaps with a fraction and an
exponent. -/
def IsStandardNumber (cs : List CodePoint) : Prop :=
  ∃ whole fraction exponent, cs = whole ++ (fraction ++ exponent) ∧
    (whole = ['-', '0'] ∨ IsStandardInteger whole) ∧ IsStandardFraction fraction ∧
      IsStandardExponent exponent

/-! ### Digits -/

theorem isAscii_append {a b : List CodePoint} : IsAscii (a ++ b) ↔ IsAscii a ∧ IsAscii b :=
  List.forall_mem_append

theorem isDigit_iff_toNat {c : CodePoint} : c.isDigit = true ↔ 48 ≤ c.toNat ∧ c.toNat ≤ 57 := by
  unfold CodePoint.isDigit
  simp only [Bool.and_eq_true, decide_eq_true_eq, CodePoint.le_def]
  exact Iff.rfl

theorem toNat_lt_of_isDigit {c : CodePoint} (h : c.isDigit = true) : c.toNat < 0x80 := by
  have hbounds := isDigit_iff_toNat.1 h
  omega

theorem isAscii_of_isDigit {digits : List CodePoint} (h : ∀ c ∈ digits, c.isDigit = true) :
    IsAscii digits := fun c hc => toNat_lt_of_isDigit (h c hc)

theorem isAscii_minus (negative : Bool) : IsAscii (Numeral.minus negative) := by
  cases negative <;> decide

/-- The digits of ASCII are the only digits in ASCII. -/
theorem Unicode.isDigit_of_ascii {c : CodePoint} (h : isDigit c = true) (hascii : c.toNat < 0x80) :
    c.isDigit = true := by
  obtain ⟨start, hstart, hle, hlt⟩ := Numeral.digitZero_of_isDigit h
  have hother : ∀ start ∈ digitZeros, start < 0x80 → start = 0x30 := by decide
  obtain rfl := hother start hstart (by omega)
  exact isDigit_iff_toNat.2 ⟨hle, Nat.le_of_lt_succ hlt⟩

theorem isDigit_of_isAscii {digits : List CodePoint} (h : ∀ c ∈ digits, Unicode.isDigit c = true)
    (hascii : IsAscii digits) : ∀ c ∈ digits, c.isDigit = true :=
  fun c hc => Unicode.isDigit_of_ascii (h c hc) (hascii c hc)

theorem digitChar_of_isDigit {c : CodePoint} (h : c.isDigit = true) :
    ∃ k < 10, Unicode.digitsValue [c] = k ∧ Nat.digitChar k = c := by
  have hbounds := isDigit_iff_toNat.1 h
  have hvalue : Unicode.digitsValue [c] = c.toNat - 48 := by
    change 10 * 0 + (Unicode.digitValue? c).getD 0 = c.toNat - 48
    rw [Unicode.digitValue?_of_isDigit h]
    simp
  have hchar : ∀ k < 10, (k.digitChar : CodePoint) = CodePoint.ofNat (k + 48) := by decide
  refine ⟨c.toNat - 48, by omega, hvalue, ?_⟩
  rw [hchar _ (by omega), Nat.sub_add_cancel hbounds.1, CodePoint.ofNat_toNat]

/-- Digits without a leading zero are those that are written for their value. -/
theorem toDigits_digitsValue {digits : List CodePoint} (h : ∀ c ∈ digits, c.isDigit = true)
    (hne : digits ≠ []) (hterse : digits = ['0'] ∨ digits.head? ≠ some '0') :
    Text.digits 10 (Unicode.digitsValue digits) = digits := by
  induction digits using List.reverseRecOn with
  | nil => exact absurd rfl hne
  | append_singleton digits c ih =>
    obtain ⟨hdigits, hc⟩ := List.forall_mem_append.1 h
    obtain ⟨k, hk, hvalue, hchar⟩ := digitChar_of_isDigit (hc c List.mem_cons_self)
    rw [Unicode.digitsValue_append, hvalue, List.length_singleton, Nat.pow_one]
    cases digits with
    | nil =>
      rw [Text.digits_eq_if (by decide), if_pos (by simpa [Unicode.digitsValue] using hk)]
      simpa [Unicode.digitsValue] using hchar
    | cons d digits =>
      have hhead : (d :: digits).head? ≠ some '0' := by simpa using hterse
      have hdigits' := ih hdigits (List.cons_ne_nil d digits) (.inr hhead)
      -- The digits before the last have a value, or a zero would be written for them.
      have hpos : Unicode.digitsValue (d :: digits) ≠ 0 := by
        intro hzero
        rw [hzero] at hdigits'
        exact hhead (by rw [← hdigits']; rfl)
      have hdiv : (Unicode.digitsValue (d :: digits) * 10 + k) / 10 =
          Unicode.digitsValue (d :: digits) := by omega
      have hmod : (Unicode.digitsValue (d :: digits) * 10 + k) % 10 = k := by omega
      rw [Text.digits_eq_if (by decide), if_neg (by omega), hdiv, hmod, hdigits', hchar]

/-! ### The parts of numbers -/

theorem IsStandardInteger.isAscii {cs : List CodePoint} (h : IsStandardInteger cs) :
    IsAscii cs := by
  obtain rfl | ⟨negative, first, digits, rfl, -, hfirst, hdigits⟩ := h
  · decide
  · exact isAscii_append.2 ⟨isAscii_minus negative,
      isAscii_of_isDigit (List.forall_mem_cons.2 ⟨hfirst, hdigits⟩)⟩

theorem IsStandardFraction.isAscii {cs : List CodePoint} (h : IsStandardFraction cs) :
    IsAscii cs := by
  obtain rfl | ⟨digits, rfl, -, hdigits⟩ := h
  · decide
  · exact List.forall_mem_cons.2 ⟨by decide, isAscii_of_isDigit hdigits⟩

theorem IsStandardExponent.isAscii {cs : List CodePoint} (h : IsStandardExponent cs) :
    IsAscii cs := by
  obtain rfl | ⟨e, sign, digits, rfl, he, hsign, -, hdigits⟩ := h
  · decide
  · have hfirst : e.toNat < 0x80 := by rcases he with rfl | rfl <;> decide
    have hsign : IsAscii sign := by rcases hsign with rfl | rfl | rfl <;> decide
    exact List.forall_mem_cons.2 ⟨hfirst, isAscii_append.2 ⟨hsign, isAscii_of_isDigit hdigits⟩⟩

theorem IsStandardNumber.isAscii {cs : List CodePoint} (h : IsStandardNumber cs) : IsAscii cs := by
  obtain ⟨whole, fraction, exponent, rfl, hwhole, hfraction, hexponent⟩ := h
  have hwhole : IsAscii whole := by
    rcases hwhole with rfl | hinteger
    · decide
    · exact hinteger.isAscii
  exact isAscii_append.2 ⟨hwhole, isAscii_append.2 ⟨hfraction.isAscii, hexponent.isAscii⟩⟩

namespace Numeral

variable {n : Numeral} {text : List CodePoint}

theorem FractionSpelled.isStandard {fraction? : Option (List CodePoint)} {cs : List CodePoint}
    (h : FractionSpelled fraction? cs) (hascii : IsAscii cs) : IsStandardFraction cs := by
  cases h with
  | absent => exact .inl rfl
  | present hne hdigits =>
    exact .inr ⟨_, rfl, hne, isDigit_of_isAscii hdigits (List.forall_mem_cons.1 hascii).2⟩

theorem ExponentSpelled.isStandard {exponent? : Option (Bool × List CodePoint)}
    {cs : List CodePoint}
    (h : ExponentSpelled exponent? cs) (hascii : IsAscii cs) : IsStandardExponent cs := by
  cases h with
  | absent => exact .inl rfl
  | present he hsign hne hdigits =>
    have hdigits' :=
      isDigit_of_isAscii hdigits (isAscii_append.1 (List.forall_mem_cons.1 hascii).2).2
    refine .inr ⟨_, _, _, rfl, he, ?_, hne, hdigits'⟩
    cases hsign with
    | absent => exact .inl rfl
    | plus => exact .inr (.inl rfl)
    | minus => exact .inr (.inr rfl)

/-- A whole part without a leading zero is an integer of the standard, or the negative zero. -/
theorem isStandardInteger_whole (hne : n.whole ≠ []) (hdigits : ∀ c ∈ n.whole, c.isDigit = true)
    (hterse : n.IsTerse) :
    n.negative = true ∧ n.whole = ['0'] ∨ IsStandardInteger (minus n.negative ++ n.whole) := by
  rcases hterse with hzero | hhead
  · cases hnegative : n.negative with
    | true => exact .inl ⟨rfl, hzero⟩
    | false => exact .inr (.inl (by rw [hzero]; rfl))
  · obtain ⟨first, digits, hwhole⟩ := List.exists_cons_of_ne_nil hne
    rw [hwhole] at hdigits hhead ⊢
    obtain ⟨hfirst, hdigits⟩ := List.forall_mem_cons.1 hdigits
    exact .inr (.inr ⟨n.negative, first, digits, rfl, by simpa using hhead, hfirst, hdigits⟩)

/-- A numeral without a leading zero is a number of the standard if and only if it is in ASCII. -/
theorem isStandardNumber_iff (h : n.Spells text) (hterse : n.IsTerse) :
    IsStandardNumber text ↔ IsAscii text := by
  refine ⟨IsStandardNumber.isAscii, fun hascii => ?_⟩
  obtain ⟨hne, hdigits, fraction, exponent, hfraction, hexponent, rfl⟩ := h
  simp only [isAscii_append] at hascii
  obtain ⟨-, hwhole, hpoint, he⟩ := hascii
  refine ⟨minus n.negative ++ n.whole, fraction, exponent, (List.append_assoc _ _ _).symm, ?_,
    hfraction.isStandard hpoint, hexponent.isStandard he⟩
  rcases isStandardInteger_whole hne (isDigit_of_isAscii hdigits hwhole) hterse with
    ⟨hnegative, hzero⟩ | hinteger
  · exact .inl (by rw [hnegative, hzero]; rfl)
  · exact .inr hinteger

/-- An integer without a leading zero or a negative zero is an integer of the standard if and only
if it is in ASCII, and then it is what is written for its value. -/
theorem isStandardInteger_iff (h : n.Spells text) (hinteger : n.isInteger = true)
    (hterse : n.IsTerse) (hzero : n.negative = true → n.whole ≠ ['0']) :
    (IsStandardInteger text ↔ IsAscii text) ∧
      (IsAscii text → text = (Text.ofInt n.integerValue).toList) := by
  have htext : text = minus n.negative ++ n.whole := by
    obtain ⟨-, -, fraction, exponent, hfraction, hexponent, rfl⟩ := h
    obtain ⟨hpoint, he⟩ : n.fraction? = none ∧ n.exponent? = none := by
      simpa [isInteger] using hinteger
    rw [hpoint] at hfraction
    rw [he] at hexponent
    cases hfraction
    cases hexponent
    simp
  have hdigits (hascii : IsAscii text) : ∀ c ∈ n.whole, c.isDigit = true := by
    rw [htext, isAscii_append] at hascii
    exact isDigit_of_isAscii h.whole_digits hascii.2
  refine ⟨⟨IsStandardInteger.isAscii, fun hascii => ?_⟩, fun hascii => ?_⟩
  · rcases isStandardInteger_whole h.whole_ne_nil (hdigits hascii) hterse with
      ⟨hnegative, hwhole⟩ | hstandard
    · exact absurd hwhole (hzero hnegative)
    · rwa [htext]
  · have hwritten := toDigits_digitsValue (hdigits hascii) h.whole_ne_nil hterse
    have hvalue : n.integerValue.natAbs = Unicode.digitsValue n.whole := by
      unfold integerValue
      split <;> omega
    have hsign : decide (n.integerValue < 0) = n.negative := by
      unfold integerValue
      cases hnegative : n.negative with
      | false => simp
      | true =>
        -- The whole part has a value, or it would be the zero.
        have hpos : Unicode.digitsValue n.whole ≠ 0 := by
          intro hnone
          rw [hnone] at hwritten
          exact hzero hnegative hwritten.symm
        simp only [if_true, decide_eq_true_eq]
        omega
    rw [toList_ofInt, hvalue, hwritten, hsign, htext]

end Numeral

/-! ### The tests for leading zeros -/

namespace Parser

variable {n : Numeral} {text : List CodePoint}

theorem isTerse_of_hasLeadingZero (h : n.Spells text) (hzero : hasLeadingZero text = false) :
    n.IsTerse := by
  obtain ⟨hne, hdigits, fraction, exponent, -, -, rfl⟩ := h
  obtain ⟨c, digits, hwhole⟩ := List.exists_cons_of_ne_nil hne
  unfold Numeral.IsTerse
  rw [hwhole] at hdigits hzero ⊢
  unfold hasLeadingZero at hzero
  rw [List.cons_append,
    Numeral.splitMinus_minus n.negative (hdigits c List.mem_cons_self)] at hzero
  by_cases hc : c = '0'
  · subst hc
    cases digits with
    | nil => exact .inl rfl
    | cons d digits =>
      have hd := hdigits d (by simp)
      simp [hd] at hzero
  · exact .inr (by simpa using hc)

theorem isTerse_of_hasIdleZero (h : n.Spells text) (hzero : hasIdleZero text = false) :
    n.IsTerse ∧ (n.negative = true → n.whole ≠ ['0']) := by
  obtain ⟨hne, -, fraction, exponent, -, -, rfl⟩ := h
  obtain ⟨c, digits, hwhole⟩ := List.exists_cons_of_ne_nil hne
  unfold Numeral.IsTerse
  rw [hwhole] at hzero ⊢
  unfold hasIdleZero at hzero
  by_cases hc : c = '0'
  · subst hc
    cases hnegative : n.negative <;> cases digits <;>
      simp_all [Numeral.minus, List.isPrefixOf]
  · exact ⟨.inr (by simpa using hc), fun _ hzero' => hc (List.cons.inj hzero').1⟩

end Parser

end JsonPath
