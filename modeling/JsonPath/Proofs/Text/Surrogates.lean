import JsonPath.Text.Hex

/-!
# Surrogates in texts

A text can hold the surrogates of a pair one by one, and then it has the UTF-16 units of another
text, in which the pair is one character. What is written by its units comes to that other text when
it is read again.
-/

namespace JsonPath.Text

open CodePoint (IsScalar)

theorem isHighSurrogate_iff {unit : Nat} :
    isHighSurrogate unit = true ↔ 0xD800 ≤ unit ∧ unit ≤ 0xDBFF := by
  rw [isHighSurrogate, Bool.and_eq_true, decide_eq_true_eq, decide_eq_true_eq]

theorem isLowSurrogate_iff {unit : Nat} :
    isLowSurrogate unit = true ↔ 0xDC00 ≤ unit ∧ unit ≤ 0xDFFF := by
  rw [isLowSurrogate, Bool.and_eq_true, decide_eq_true_eq, decide_eq_true_eq]

theorem utf16_eq_singleton_iff {c : CodePoint} {n : Nat} :
    utf16 c = [n] ↔ c.toNat < 0x10000 ∧ c.toNat = n := by
  unfold utf16
  split
  next hunit => simp [hunit]
  next hunit => exact iff_of_false (by simp) fun h => hunit h.1

/-- The units above U+FFFF are the surrogate pairs. -/
theorem utf16_eq_pair_iff {c : CodePoint} {high low : Nat} :
    utf16 c = [high, low] ↔ isHighSurrogate high = true ∧ isLowSurrogate low = true ∧
      joinSurrogates high low = c.toNat := by
  have hlt := c.toNat_lt
  rw [isHighSurrogate_iff, isLowSurrogate_iff]
  unfold utf16 joinSurrogates
  split
  next hunit =>
    refine iff_of_false (by simp) ?_
    omega
  next hunit =>
    simp only [List.cons.injEq, and_true]
    omega

/-- A character has one unit or two. -/
theorem utf16_cases (c : CodePoint) :
    utf16 c = [c.toNat] ∧ c.toNat < 0x10000 ∨
      ∃ high low, utf16 c = [high, low] ∧ 0x10000 ≤ c.toNat := by
  unfold utf16
  split
  next hunit => exact .inl ⟨rfl, hunit⟩
  next hunit => exact .inr ⟨_, _, rfl, Nat.not_lt.1 hunit⟩

theorem lt_of_utf16_eq_pair {c : CodePoint} {high low : Nat} (h : utf16 c = [high, low]) :
    high < 0x10000 ∧ low < 0x10000 := by
  obtain ⟨hhigh, hlow, -⟩ := utf16_eq_pair_iff.1 h
  have hhighRange := isHighSurrogate_iff.1 hhigh
  have hlowRange := isLowSurrogate_iff.1 hlow
  omega

theorem isHighSurrogate_eq_false {c : CodePoint} (h : c.IsScalar) :
    isHighSurrogate c.toNat = false := by
  have hrange := CodePoint.isScalar_iff.1 h
  rw [Bool.eq_false_iff, Ne, isHighSurrogate_iff]
  omega

/-- The UTF-16 units of a text. -/
def units (cs : List CodePoint) : List Nat := cs.flatMap utf16

/-- The code points with the given units. A high surrogate and a low one behind it are one. -/
def ofUnits : List Nat → List CodePoint
  | high :: low :: rest =>
    if isHighSurrogate high && isLowSurrogate low then
      .ofNat (joinSurrogates high low) :: ofUnits rest
    else .ofNat high :: ofUnits (low :: rest)
  | [unit] => [.ofNat unit]
  | [] => []

/-- The text in which each pair of surrogates is one character. -/
def joined (t : Text) : Text := ⟨ofUnits (units t.toList)⟩

theorem units_cons (c : CodePoint) (cs : List CodePoint) : units (c :: cs) = utf16 c ++ units cs :=
  List.flatMap_cons

theorem lt_of_mem_units {cs : List CodePoint} {unit : Nat} (h : unit ∈ units cs) :
    unit < 0x10000 := by
  obtain ⟨c, -, hunit⟩ := List.mem_flatMap.1 h
  rcases utf16_cases c with ⟨hc, hlt⟩ | ⟨high, low, hc, -⟩
  · rw [hc, List.mem_singleton] at hunit
    omega
  · have hlt := lt_of_utf16_eq_pair hc
    rw [hc, List.mem_cons, List.mem_singleton] at hunit
    omega

theorem utf16_ofNat {unit : Nat} (h : unit < 0x10000) : utf16 (.ofNat unit) = [unit] := by
  have hnat := CodePoint.toNat_ofNat (n := unit) (by omega)
  exact utf16_eq_singleton_iff.2 ⟨by omega, hnat⟩

theorem utf16_joinSurrogates {high low : Nat} (hhigh : isHighSurrogate high = true)
    (hlow : isLowSurrogate low = true) :
    utf16 (.ofNat (joinSurrogates high low)) = [high, low] := by
  refine utf16_eq_pair_iff.2 ⟨hhigh, hlow, (CodePoint.toNat_ofNat ?_).symm⟩
  have hhighRange := isHighSurrogate_iff.1 hhigh
  have hlowRange := isLowSurrogate_iff.1 hlow
  unfold joinSurrogates
  omega

theorem units_ofUnits {us : List Nat} (h : ∀ unit ∈ us, unit < 0x10000) :
    units (ofUnits us) = us := by
  fun_induction ofUnits us with
  | case1 high low rest hpair ih =>
    obtain ⟨hhigh, hlow⟩ := Bool.and_eq_true_iff.1 hpair
    obtain ⟨-, -, hrest⟩ := List.forall_mem_cons.1 h |>.imp_right List.forall_mem_cons.1
    rw [units_cons, utf16_joinSurrogates hhigh hlow, ih hrest]
    rfl
  | case2 high low rest _ ih =>
    obtain ⟨hhigh, hrest⟩ := List.forall_mem_cons.1 h
    rw [units_cons, utf16_ofNat hhigh, ih hrest]
    rfl
  | case3 unit =>
    rw [units_cons, utf16_ofNat (h unit List.mem_cons_self)]
    rfl
  | case4 => rfl

/-- The joined text has the same units. -/
theorem units_joined (t : Text) : units t.joined.toList = units t.toList :=
  units_ofUnits fun _ => lt_of_mem_units

/-- A scalar value is joined with nothing. -/
theorem ofUnits_append_utf16 {c : CodePoint} (h : c.IsScalar) (us : List Nat) :
    ofUnits (utf16 c ++ us) = c :: ofUnits us := by
  rcases utf16_cases c with ⟨hc, -⟩ | ⟨high, low, hc, -⟩
  · rw [hc, List.singleton_append]
    cases us with
    | nil => rw [ofUnits, ofUnits, CodePoint.ofNat_toNat]
    | cons unit us =>
      rw [ofUnits, isHighSurrogate_eq_false h, Bool.false_and, if_neg Bool.false_ne_true,
        CodePoint.ofNat_toNat]
  · obtain ⟨hhigh, hlow, hjoin⟩ := utf16_eq_pair_iff.1 hc
    rw [hc, List.cons_append, List.singleton_append, ofUnits, hhigh, hlow, Bool.and_self,
      if_pos rfl, hjoin, CodePoint.ofNat_toNat]

theorem ofUnits_units {cs : List CodePoint} (h : ∀ c ∈ cs, c.IsScalar) :
    ofUnits (units cs) = cs := by
  induction cs with
  | nil => rfl
  | cons c cs ih =>
    obtain ⟨hc, hcs⟩ := List.forall_mem_cons.1 h
    rw [units_cons, ofUnits_append_utf16 hc, ih hcs]

/-- A text without surrogates is joined already. -/
theorem joined_eq_self {t : Text} (h : ∀ c ∈ t.toList, c.IsScalar) : t.joined = t :=
  toList_injective (ofUnits_units h)

end JsonPath.Text
