import JsonPath.Number.Numeral

/-!
# Written numbers

The lexer finds a number by scanning, the parser reads its text again as an integer or as a decimal.
What connects the two is which texts write which numeral. A scan finds the longest such text at the
front of what it is given, and on such a text the two readers agree with the numeral.
-/

namespace JsonPath.Numeral

/-- No digit, and nothing that a digit could precede in a number. -/
def EndsNumber (rest : List CodePoint) : Prop :=
  ∀ c ∈ rest.head?, Unicode.isDigit c = false ∧ c ≠ '.' ∧ c ≠ 'e' ∧ c ≠ 'E'

/-- A point and digits, or nothing. -/
inductive FractionSpelled : Option (List CodePoint) → List CodePoint → Prop
  | absent : FractionSpelled none []
  | present {digits : List CodePoint} : digits ≠ [] → (∀ c ∈ digits, Unicode.isDigit c) →
      FractionSpelled (some digits) ('.' :: digits)

inductive SignSpelled : Bool → List CodePoint → Prop
  | absent : SignSpelled false []
  | plus : SignSpelled false ['+']
  | minus : SignSpelled true ['-']

/-- An `e`, perhaps a sign, and digits, or nothing. -/
inductive ExponentSpelled : Option (Bool × List CodePoint) → List CodePoint → Prop
  | absent : ExponentSpelled none []
  | present {e : CodePoint} {negative : Bool} {sign digits : List CodePoint} : e = 'e' ∨ e = 'E' →
      SignSpelled negative sign → digits ≠ [] → (∀ c ∈ digits, Unicode.isDigit c) →
      ExponentSpelled (some (negative, digits)) (e :: (sign ++ digits))

def minus (negative : Bool) : List CodePoint := if negative then ['-'] else []

/-- The text writes the numeral. -/
structure Spells (n : Numeral) (text : List CodePoint) : Prop where
  whole_ne_nil : n.whole ≠ []
  whole_digits : ∀ c ∈ n.whole, Unicode.isDigit c
  parts : ∃ fraction exponent, FractionSpelled n.fraction? fraction ∧
    ExponentSpelled n.exponent? exponent ∧
    text = minus n.negative ++ (n.whole ++ (fraction ++ exponent))

/-- The integer that the numeral writes, if it has neither fraction nor exponent. -/
def integerValue (n : Numeral) : Int :=
  if n.negative then -Unicode.digitsValue n.whole else Unicode.digitsValue n.whole

/-! ### Digits are no other characters -/

theorem digitZero_of_isDigit {c : CodePoint} (h : Unicode.isDigit c) :
    ∃ start ∈ Unicode.digitZeros, start ≤ c.toNat ∧ c.toNat < start + 10 := by
  unfold Unicode.isDigit Unicode.digitValue? at h
  rw [Option.isSome_map] at h
  obtain ⟨start, hstart⟩ := Option.isSome_iff_exists.1 h
  refine ⟨start, List.mem_of_find?_eq_some hstart, ?_⟩
  simpa using List.find?_some hstart

/-- A stretch of code points in which there are no digits. -/
def DigitFree (low high : Nat) : Prop :=
  ∀ start ∈ Unicode.digitZeros, start + 10 ≤ low ∨ high < start

instance (low high : Nat) : Decidable (DigitFree low high) :=
  inferInstanceAs (Decidable (∀ start ∈ Unicode.digitZeros, start + 10 ≤ low ∨ high < start))

theorem not_between_of_isDigit {c : CodePoint} (h : Unicode.isDigit c) {low high : Nat}
    (hfree : DigitFree low high) : c.toNat < low ∨ high < c.toNat := by
  obtain ⟨start, hmem, hle, hlt⟩ := digitZero_of_isDigit h
  have := hfree start hmem
  omega

theorem ne_of_isDigit {c d : CodePoint} (h : Unicode.isDigit c) (hd : Unicode.isDigit d = false) :
    c ≠ d := by
  rintro rfl
  rw [h] at hd
  cases hd

theorem not_isWhiteSpace_of_isDigit {c : CodePoint} (h : Unicode.isDigit c) :
    Unicode.isWhiteSpace c = false := by
  have hranges : ∀ range ∈ Unicode.spaceRanges, DigitFree range.1 range.2 := by decide
  have hspace : Unicode.isSpace c = false := by
    rw [Bool.eq_false_iff]
    intro hspace
    unfold Unicode.isSpace Unicode.Ranges.covers at hspace
    obtain ⟨range, hmem, hrange⟩ := List.any_eq_true.1 hspace
    have := not_between_of_isDigit h (hranges range hmem)
    simp only [Bool.and_eq_true, decide_eq_true_eq] at hrange
    omega
  simp [Unicode.isWhiteSpace, hspace]

theorem toLower_of_isDigit {c : CodePoint} (h : Unicode.isDigit c) : c.toLower = c := by
  have hbetween := not_between_of_isDigit h (by decide : DigitFree 65 90)
  have hupper : ¬c.isUpper = true := by
    simp only [CodePoint.isUpper, Bool.and_eq_true, decide_eq_true_eq, CodePoint.le_def,
      CodePoint.toNat_scalar, Char.reduceToNat]
    omega
  exact if_neg hupper

/-! ### Scanning -/

theorem spanDigits_of_ends {digits rest : List CodePoint}
    (hdigits : ∀ c ∈ digits, Unicode.isDigit c)
    (hrest : ∀ c ∈ rest.head?, Unicode.isDigit c = false) :
    spanDigits Unicode.isDigit (digits ++ rest) = (digits, rest) := by
  unfold spanDigits
  rw [List.takeWhile_append_of_pos hdigits, List.dropWhile_append_of_pos hdigits]
  cases rest with
  | nil => simp
  | cons c rest =>
    have hc := hrest c rfl
    simp [hc]

theorem splitMinus_minus (negative : Bool) {c : CodePoint} (hc : Unicode.isDigit c)
    (cs : List CodePoint) :
    splitMinus (minus negative ++ c :: cs) = (negative, c :: cs) := by
  cases negative with
  | true => rfl
  | false =>
    have hne := ne_of_isDigit hc (d := '-') (by decide)
    unfold minus splitMinus
    simp only [Bool.false_eq_true, if_false, List.nil_append]
    split
    next heq => simp_all
    · rfl

theorem splitSign_minus (negative : Bool) {c : CodePoint} (hc : Unicode.isDigit c)
    (cs : List CodePoint) :
    splitSign (minus negative ++ c :: cs) = (negative, c :: cs) := by
  cases negative with
  | true => rfl
  | false =>
    have hminus := ne_of_isDigit hc (d := '-') (by decide)
    have hplus := ne_of_isDigit hc (d := '+') (by decide)
    unfold minus splitSign
    simp only [Bool.false_eq_true, if_false, List.nil_append]
    split
    next heq => simp_all
    next heq => simp_all
    · rfl

theorem splitSign_of_spelled {negative : Bool} {sign : List CodePoint} {c : CodePoint}
    (h : SignSpelled negative sign) (hc : Unicode.isDigit c) (cs : List CodePoint) :
    splitSign (sign ++ c :: cs) = (negative, c :: cs) := by
  cases h with
  | absent => exact splitSign_minus false hc cs
  | plus => rfl
  | minus => rfl

theorem scanFraction_of_spelled {fraction? : Option (List CodePoint)}
    {fraction rest : List CodePoint}
    (h : FractionSpelled fraction? fraction)
    (hrest : ∀ c ∈ rest.head?, Unicode.isDigit c = false ∧ (fraction? = none → c ≠ '.')) :
    scanFraction Unicode.isDigit (fraction ++ rest) = (fraction?, rest) := by
  cases h with
  | absent =>
    unfold scanFraction
    simp only [List.nil_append]
    split
    next more => exact absurd rfl ((hrest '.' rfl).2 rfl)
    · rfl
  | present hne hdigits =>
    obtain ⟨d, ds, rfl⟩ := List.exists_cons_of_ne_nil hne
    have hspan := spanDigits_of_ends hdigits fun c hc => (hrest c hc).1
    unfold spanDigits at hspan
    simp only [Prod.mk.injEq] at hspan
    simp only [List.cons_append, scanFraction] at hspan ⊢
    rw [hspan.1, hspan.2]

theorem scanExponent_of_spelled {exponent? : Option (Bool × List CodePoint)}
    {exponent rest : List CodePoint} (h : ExponentSpelled exponent? exponent)
    (hrest : EndsNumber rest) :
    scanExponent Unicode.isDigit (exponent ++ rest) = (exponent?, rest) := by
  cases h with
  | absent =>
    cases rest with
    | nil => rfl
    | cons c rest =>
      obtain ⟨-, -, hlower, hupper⟩ := hrest c rfl
      simp [scanExponent, hlower, hupper]
  | @present e negative sign digits he hsign hne hdigits =>
    obtain ⟨d, ds, rfl⟩ := List.exists_cons_of_ne_nil hne
    have hsplit := splitSign_of_spelled hsign (hdigits d List.mem_cons_self) (ds ++ rest)
    have hspan := spanDigits_of_ends hdigits fun c hc => (hrest c hc).1
    unfold spanDigits at hspan
    simp only [Prod.mk.injEq, List.cons_append] at hspan
    simp only [List.cons_append, List.append_assoc, scanExponent, if_pos he, hsplit]
    rw [hspan.1, hspan.2]

theorem head?_exponent {exponent? : Option (Bool × List CodePoint)} {exponent rest : List CodePoint}
    (h : ExponentSpelled exponent? exponent) (hrest : EndsNumber rest) :
    ∀ c ∈ (exponent ++ rest).head?, Unicode.isDigit c = false ∧ c ≠ '.' := by
  cases h with
  | absent => exact fun c hc => ⟨(hrest c hc).1, (hrest c hc).2.1⟩
  | present he =>
    intro c hc
    obtain rfl : _ = c := by simpa using hc
    rcases he with rfl | rfl <;> decide

theorem head?_fraction {fraction? : Option (List CodePoint)} {fraction rest : List CodePoint}
    (h : FractionSpelled fraction? fraction)
    (hrest : ∀ c ∈ rest.head?, Unicode.isDigit c = false) :
    ∀ c ∈ (fraction ++ rest).head?, Unicode.isDigit c = false := by
  cases h with
  | absent => exact hrest
  | present =>
    intro c hc
    obtain rfl : '.' = c := by simpa using hc
    decide

/-- A scan finds a written number, if nothing after it could be part of it. -/
theorem scan?_of_spells {n : Numeral} {text rest : List CodePoint} (h : n.Spells text)
    (hrest : EndsNumber rest) :
    scan? Unicode.isDigit (spanDigits Unicode.isDigit) (text ++ rest) = some (n, rest) := by
  obtain ⟨hne, hdigits, fraction, exponent, hfraction, hexponent, rfl⟩ := h
  obtain ⟨negative, whole, fraction?, exponent?⟩ := n
  obtain ⟨c, cs, rfl⟩ := List.exists_cons_of_ne_nil hne
  have hend := head?_exponent hexponent hrest
  have hminus := splitMinus_minus negative (hdigits c List.mem_cons_self)
    (cs ++ (fraction ++ (exponent ++ rest)))
  have hspan := spanDigits_of_ends hdigits (head?_fraction hfraction fun c hc => (hend c hc).1)
  have hscan := scanFraction_of_spelled hfraction fun c hc =>
    ⟨(hend c hc).1, fun _ => (hend c hc).2⟩
  unfold scan?
  simp only [List.append_assoc, List.cons_append] at hminus hspan ⊢
  rw [hminus]
  simp only [hspan, hscan, scanExponent_of_spelled hexponent hrest]
  simp

theorem spanDigits_digits (cs : List CodePoint) :
    ∀ c ∈ (spanDigits Unicode.isDigit cs).1, Unicode.isDigit c :=
  fun c hc => List.all_eq_true.1 List.all_takeWhile c hc

theorem splitMinus_spelled (cs : List CodePoint) :
    cs = minus (splitMinus cs).1 ++ (splitMinus cs).2 := by
  unfold splitMinus minus
  split <;> simp

theorem splitSign_spelled (cs : List CodePoint) :
    ∃ sign, SignSpelled (splitSign cs).1 sign ∧ cs = sign ++ (splitSign cs).2 := by
  unfold splitSign
  split
  · exact ⟨_, .minus, rfl⟩
  · exact ⟨_, .plus, rfl⟩
  · exact ⟨_, .absent, rfl⟩

theorem scanFraction_spelled (cs : List CodePoint) :
    ∃ fraction, FractionSpelled (scanFraction Unicode.isDigit cs).1 fraction ∧
      cs = fraction ++ (scanFraction Unicode.isDigit cs).2 := by
  unfold scanFraction
  split
  next rest =>
    split
    · exact ⟨[], .absent, rfl⟩
    next hne =>
      refine ⟨_, .present hne (spanDigits_digits rest), ?_⟩
      rw [List.cons_append, List.takeWhile_append_dropWhile]
  · exact ⟨[], .absent, rfl⟩

theorem scanExponent_spelled (cs : List CodePoint) :
    ∃ exponent, ExponentSpelled (scanExponent Unicode.isDigit cs).1 exponent ∧
      cs = exponent ++ (scanExponent Unicode.isDigit cs).2 := by
  unfold scanExponent
  split
  · exact ⟨[], .absent, rfl⟩
  next e rest =>
    split
    next he =>
      obtain ⟨sign, hsign, heq⟩ := splitSign_spelled rest
      dsimp only
      split
      · exact ⟨[], .absent, rfl⟩
      next hne =>
        refine ⟨_, .present he hsign hne (spanDigits_digits (splitSign rest).2), ?_⟩
        rw [List.cons_append, List.append_assoc, List.takeWhile_append_dropWhile, ← heq]
    · exact ⟨[], .absent, rfl⟩

/-- What a scan finds is a written number at the front of the text. -/
theorem spells_of_scan? {n : Numeral} {cs rest : List CodePoint}
    (h : scan? Unicode.isDigit (spanDigits Unicode.isDigit) cs = some (n, rest)) :
    ∃ text, cs = text ++ rest ∧ n.Spells text := by
  unfold scan? at h
  dsimp only at h
  split at h
  · cases h
  next hne =>
    simp only [Option.some.injEq, Prod.mk.injEq] at h
    obtain ⟨rfl, rfl⟩ := h
    have hwhole := spanDigits_append Unicode.isDigit (splitMinus cs).2
    obtain ⟨fraction, hfraction, hcut⟩ :=
      scanFraction_spelled (spanDigits Unicode.isDigit (splitMinus cs).2).2
    obtain ⟨exponent, hexponent, hlast⟩ := scanExponent_spelled
      (scanFraction Unicode.isDigit (spanDigits Unicode.isDigit (splitMinus cs).2).2).2
    refine ⟨_, ?_, ⟨hne, spanDigits_digits _, fraction, exponent, hfraction, hexponent, rfl⟩⟩
    simp only [List.append_assoc]
    rw [← hlast, ← hcut, hwhole, ← splitMinus_spelled]

/-! ### Reading -/

theorem trim_of_ends {cs : List CodePoint} (hhead : ∀ c ∈ cs.head?, Unicode.isWhiteSpace c = false)
    (hlast : ∀ c ∈ cs.getLast?, Unicode.isWhiteSpace c = false) : trim cs = cs := by
  have hstart : cs.dropWhile Unicode.isWhiteSpace = cs := by
    cases cs with
    | nil => rfl
    | cons c cs => simp [hhead c rfl]
  have hend : cs.reverse.dropWhile Unicode.isWhiteSpace = cs.reverse := by
    cases hcs : cs.reverse with
    | nil => rfl
    | cons c more =>
      have hc : c ∈ cs.getLast? := by
        rw [← List.head?_reverse, hcs]
        rfl
      simp [hlast c hc]
  unfold trim
  rw [hstart, hend, List.reverse_reverse]

theorem ungroup?_of_not_mem {afterDigit : Bool} {cs : List CodePoint} (h : ('_' : CodePoint) ∉ cs) :
    ungroup? afterDigit cs = some cs := by
  fun_induction ungroup? afterDigit cs with
  | case1 => rfl
  | case2 => simp at h
  | case3 => simp at h
  | case4 => simp at h
  | case5 afterDigit c rest _ _ ih =>
    rw [ih fun hmem => h (List.mem_cons_of_mem _ hmem)]
    rfl

theorem mem_of_signSpelled {negative : Bool} {sign : List CodePoint} (h : SignSpelled negative sign)
    {c : CodePoint} (hc : c ∈ sign) : c ∈ [('-' : CodePoint), '+'] := by
  cases h <;> simp_all

/-- The characters of written numbers. -/
theorem mem_of_spells {n : Numeral} {text : List CodePoint} (h : n.Spells text) {c : CodePoint}
    (hc : c ∈ text) : Unicode.isDigit c ∨ c ∈ [('-' : CodePoint), '+', '.', 'e', 'E'] := by
  obtain ⟨negative, whole, fraction?, exponent?⟩ := n
  obtain ⟨-, hdigits, fraction, exponent, hfraction, hexponent, rfl⟩ := h
  simp only [List.mem_append] at hc
  rcases hc with hc | hc | hc | hc
  · unfold minus at hc
    split at hc <;> simp_all
  · exact .inl (hdigits c hc)
  · cases hfraction with
    | absent => simp at hc
    | present _ hmore =>
      rcases List.mem_cons.1 hc with rfl | hc
      · exact .inr (by decide)
      · exact .inl (hmore c hc)
  · cases hexponent with
    | absent => simp at hc
    | present he hsign _ hmore =>
      rcases List.mem_cons.1 hc with rfl | hc
      · rcases he with rfl | rfl <;> exact .inr (by decide)
      · rcases List.mem_append.1 hc with hc | hc
        · have hsigns : ∀ c ∈ [('-' : CodePoint), '+'],
              c ∈ [('-' : CodePoint), '+', '.', 'e', 'E'] := by simp
          exact .inr (hsigns c (mem_of_signSpelled hsign hc))
        · exact .inl (hmore c hc)

theorem not_isWhiteSpace_of_spells {n : Numeral} {text : List CodePoint} (h : n.Spells text)
    {c : CodePoint}
    (hc : c ∈ text) : Unicode.isWhiteSpace c = false := by
  rcases mem_of_spells h hc with hdigit | hother
  · exact not_isWhiteSpace_of_isDigit hdigit
  · have hnone : ∀ c ∈ [('-' : CodePoint), '+', '.', 'e', 'E'], Unicode.isWhiteSpace c = false := by
      simp only [List.forall_mem_cons, List.not_mem_nil, false_imp_iff, implies_true, and_true]
      decide
    exact hnone c hother

theorem trim_of_spells {n : Numeral} {text : List CodePoint} (h : n.Spells text) :
    trim text = text :=
  trim_of_ends (fun _ hc => not_isWhiteSpace_of_spells h (List.mem_of_mem_head? hc))
    fun _ hc => not_isWhiteSpace_of_spells h (List.mem_of_getLast? hc)

theorem not_mem_underscore_of_spells {n : Numeral} {text : List CodePoint} (h : n.Spells text) :
    ('_' : CodePoint) ∉ text := by
  intro hc
  rcases mem_of_spells h hc with hdigit | hother
  · exact ne_of_isDigit hdigit (d := '_') (by decide) rfl
  · exact absurd hother (by decide)

/-- The text of an integer reads as its value, up to the length that is read at all. -/
theorem readInteger_of_spells {n : Numeral} {text : Text} (h : n.Spells text.toList)
    (hinteger : n.isInteger) : readInteger text = integer n.negative n.whole := by
  have htrim := trim_of_spells h
  have hunderscore := not_mem_underscore_of_spells h
  obtain ⟨negative, whole, fraction?, exponent?⟩ := n
  obtain ⟨hne, hdigits, fraction, exponent, hfraction, hexponent, htext⟩ := h
  simp only [isInteger, Bool.and_eq_true, Option.isNone_iff_eq_none] at hinteger
  obtain ⟨rfl, rfl⟩ := hinteger
  cases hfraction
  cases hexponent
  simp only [List.append_nil] at htext
  obtain ⟨c, cs, rfl⟩ := List.exists_cons_of_ne_nil hne
  have hsplit := splitSign_minus negative (hdigits c List.mem_cons_self) cs
  have hwhole : ('_' : CodePoint) ∉ c :: cs :=
    fun hmem => hunderscore (htext ▸ List.mem_append_right _ hmem)
  have hends : ∀ d ∈ ([] : List CodePoint).head?, Unicode.isDigit d = false := by simp
  have hspan := spanDigits_of_ends hdigits hends
  rw [List.append_nil] at hspan
  unfold readInteger
  rw [htrim, htext, hsplit]
  simp only [ungroup?_of_not_mem hwhole, hspan]
  cases integer negative (c :: cs) <;> simp [bind, Except.bind, pure, Except.pure]

theorem readInteger_eq_ok_iff {n : Numeral} {text : Text} (h : n.Spells text.toList)
    (hinteger : n.isInteger) {i : Int} :
    readInteger text = .ok i ↔ n.whole.length ≤ longestInteger ∧ n.integerValue = i := by
  rw [readInteger_of_spells h hinteger]
  unfold integer integerValue
  split
  next hlong => simp [Nat.not_le.2 hlong]
  next hshort => simp [Nat.not_lt.1 hshort]

theorem named?_of_digit {negative : Bool} {c : CodePoint} {cs : List CodePoint}
    (hc : Unicode.isDigit c) :
    named? negative (c :: cs) = none := by
  have hi := ne_of_isDigit hc (d := 'i') (by decide)
  have hn := ne_of_isDigit hc (d := 'n') (by decide)
  have hword (word : Text) (hword : word.toList.head? = some 'i' ∨ word.toList.head? = some 'n') :
      Text.ofList ((c :: cs).map CodePoint.toLower) ≠ word := by
    rintro rfl
    rw [Text.toList_ofList, List.map_cons, toLower_of_isDigit hc] at hword
    simp_all
  unfold named?
  simp only [hword "inf" (by decide), hword "infinity" (by decide), hword "nan" (by decide),
    or_self, if_false]

theorem pointed?_of_spelled (negative : Bool) {whole fraction exponent : List CodePoint}
    {fraction? : Option (List CodePoint)} {exponent? : Option (Bool × List CodePoint)}
    (hne : whole ≠ [])
    (hdigits : ∀ c ∈ whole, Unicode.isDigit c) (hfraction : FractionSpelled fraction? fraction)
    (hexponent : ExponentSpelled exponent? exponent) :
    pointed? negative (whole ++ (fraction ++ exponent)) =
      some ⟨negative, whole, some (fraction?.getD []), exponent?⟩ := by
  have hends : EndsNumber [] := by simp [EndsNumber]
  have hhead := head?_exponent hexponent hends
  have hlast := scanExponent_of_spelled hexponent hends
  rw [List.append_nil] at hhead hlast
  have hspan := spanDigits_of_ends hdigits (head?_fraction hfraction fun c hc => (hhead c hc).1)
  unfold pointed?
  simp only [hspan]
  cases hfraction with
  | absent =>
    cases hexponent with
    | absent => simp [hlast, hne]
    | present he =>
      rcases he with rfl | rfl <;> simp [hlast, hne]
  | present _ hmore =>
    have hmoreSpan := spanDigits_of_ends hmore fun c hc => (hhead c hc).1
    simp only [List.cons_append, hmoreSpan, hlast]
    simp [hne]

/-- A written number reads as the binary64 number nearest to it. -/
theorem readDouble_of_spells {n : Numeral} {text : Text} (h : n.Spells text.toList) :
    readDouble text = .ok n.decimal.toDouble := by
  have htrim := trim_of_spells h
  have hunderscore := not_mem_underscore_of_spells h
  obtain ⟨negative, whole, fraction?, exponent?⟩ := n
  obtain ⟨hne, hdigits, fraction, exponent, hfraction, hexponent, htext⟩ := h
  have hpointed := pointed?_of_spelled negative hne hdigits hfraction hexponent
  obtain ⟨c, cs, rfl⟩ := List.exists_cons_of_ne_nil hne
  have hc := hdigits c List.mem_cons_self
  have hsplit := splitSign_minus negative hc (cs ++ (fraction ++ exponent))
  have hrest : ('_' : CodePoint) ∉ c :: (cs ++ (fraction ++ exponent)) :=
    fun hmem => hunderscore (htext ▸ List.mem_append_right _ hmem)
  unfold readDouble
  rw [htrim, htext]
  simp only [List.cons_append] at hsplit hpointed ⊢
  rw [hsplit]
  simp only [ungroup?_of_not_mem hrest, named?_of_digit hc, hpointed]
  rfl

end JsonPath.Numeral
