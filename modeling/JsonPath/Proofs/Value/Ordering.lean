import JsonPath.Proofs.Value.DeepEquality
import Mathlib.Data.List.Lex

/-!
# The order of values

Numbers are in the order of their exact values and strings in that of their code points. Both orders
are linear, and what is equal there is equal in all parts, so the order of values respects their
equality and leaves open only how values compare that are neither two numbers nor two strings. The
six operators are all put together from the two relations.
-/

namespace JsonPath

namespace Value

def codePoints (s : Text) : List ℕ := s.toList.map CodePoint.toNat

/-- The first value comes before the second. -/
inductive Below : Value → Value → Prop
  | number {m n : Number} {x y : WithBot (WithTop ℚ)} : m.value? = some x → n.value? = some y →
      x < y → Below (.number m) (.number n)
  | string {s t : Text} : codePoints s < codePoints t → Below (.string s) (.string t)

/-- Both values are numbers, or both are strings. -/
inductive AreOrdered : Value → Value → Prop
  | numbers {m n : Number} : AreOrdered (.number m) (.number n)
  | strings {s t : Text} : AreOrdered (.string s) (.string t)

variable {a b c : Value} {s t : Text}

theorem codePoints_injective : Function.Injective codePoints := by
  intro s t h
  have hcode : Function.Injective CodePoint.toNat := fun _ _ => CodePoint.toNat_inj.1
  exact Text.toList_inj.1 (List.map_injective_iff.2 hcode h)

/-- Strings are in the order of their code points. -/
theorem codePoints_lt_iff : codePoints s < codePoints t ↔ s < t := by
  suffices h : ∀ cs ds : List CodePoint,
      cs.map CodePoint.toNat < ds.map CodePoint.toNat ↔ cs < ds from
    h s.toList t.toList
  intro cs
  induction cs with
  | nil =>
    rintro (_ | ⟨d, ds⟩)
    · simp
    · exact iff_of_true (List.nil_lt_cons _ _) (List.nil_lt_cons _ _)
  | cons c cs ih =>
    rintro (_ | ⟨d, ds⟩)
    · simp
    · rw [List.map_cons, List.map_cons, List.cons_lt_cons_iff, List.cons_lt_cons_iff, ih,
        CodePoint.toNat_inj]
      rfl

theorem less_iff_below : a.less b = true ↔ a.Below b := by
  constructor
  · intro h
    cases a with
    | number m =>
      cases b with
      | number n =>
        obtain ⟨x, y, hm, hn, hlt⟩ := Number.less_iff.1 h
        exact .number hm hn hlt
      | _ => cases h
    | string s =>
      cases b with
      | string t => exact .string (codePoints_lt_iff.2 (of_decide_eq_true h))
      | _ => cases h
    | _ => cases h
  · rintro (⟨hm, hn, hlt⟩ | hlt)
    · exact Number.less_iff.2 ⟨_, _, hm, hn, hlt⟩
    · exact decide_eq_true (codePoints_lt_iff.1 hlt)

/-! ### A strict order -/

theorem Below.irrefl : ¬ a.Below a := by
  rintro (⟨hm, hn, hlt⟩ | hlt)
  · exact hlt.ne (Option.some.inj (hm.symm.trans hn))
  · exact lt_irrefl _ hlt

theorem Below.trans (h : a.Below b) (h' : b.Below c) : a.Below c := by
  cases h with
  | number hm hn hlt =>
    cases h' with
    | number hn' hl hlt' =>
      obtain rfl := Option.some.inj (hn.symm.trans hn')
      exact .number hm hl (hlt.trans hlt')
  | string hlt =>
    cases h' with
    | string hlt' => exact .string (lt_trans hlt hlt')

theorem Below.asymm (h : a.Below b) : ¬ b.Below a := fun h' => irrefl (h.trans h')

theorem Below.areOrdered (h : a.Below b) : a.AreOrdered b := by
  cases h with
  | number => exact .numbers
  | string => exact .strings

theorem AreOrdered.symm (h : a.AreOrdered b) : b.AreOrdered a := by
  cases h with
  | numbers => exact .numbers
  | strings => exact .strings

/-! ### The order and equality -/

theorem Below.of_deepEqual_left (h : a.Below c) (hequal : a.DeepEqual b) : b.Below c := by
  cases h with
  | number hm hl hlt =>
    cases hequal with
    | number hm' hn =>
      obtain rfl := Option.some.inj (hm.symm.trans hm')
      exact .number hn hl hlt
    | sequence hitems => cases hitems
  | string hlt =>
    cases hequal with
    | string => exact .string hlt
    | sequence hitems => cases hitems

theorem Below.of_deepEqual_right (h : c.Below a) (hequal : a.DeepEqual b) : c.Below b := by
  cases h with
  | number hl hm hlt =>
    cases hequal with
    | number hm' hn =>
      obtain rfl := Option.some.inj (hm.symm.trans hm')
      exact .number hl hn hlt
    | sequence hitems => cases hitems
  | string hlt =>
    cases hequal with
    | string => exact .string hlt
    | sequence hitems => cases hitems

theorem Below.not_deepEqual (h : a.Below b) : ¬ a.DeepEqual b :=
  fun hequal => irrefl (h.of_deepEqual_left hequal)

/-- Of two numbers or two strings, one comes before the other or they are equal. -/
theorem AreOrdered.below_or_deepEqual_or_below (h : a.AreOrdered b) (ha : a.IsExact)
    (hb : b.IsExact) : a.Below b ∨ a.DeepEqual b ∨ b.Below a := by
  cases h with
  | numbers =>
    obtain ⟨x, hx⟩ := ha.exists_value?
    obtain ⟨y, hy⟩ := hb.exists_value?
    rcases lt_trichotomy x y with hlt | rfl | hlt
    · exact .inl (.number hx hy hlt)
    · exact .inr (.inl (.number hx hy))
    · exact .inr (.inr (.number hy hx hlt))
  | @strings s t =>
    rcases lt_trichotomy (codePoints s) (codePoints t) with hlt | heq | hlt
    · exact .inl (.string hlt)
    · obtain rfl := codePoints_injective heq
      exact .inr (.inl .string)
    · exact .inr (.inr (.string hlt))

end Value

namespace Comparison

open Value

variable {a b c : Value}

theorem lessOrEqual_iff (ha : a.IsExact) (hb : b.IsExact) :
    lessOrEqual.holds a b = true ↔ a.Below b ∨ a.DeepEqual b := by
  rw [holds, Bool.or_eq_true, less_iff_below, equal_iff_deepEqual ha hb]

theorem greaterOrEqual_eq (ha : a.IsExact) (hb : b.IsExact) :
    greaterOrEqual.holds a b = lessOrEqual.holds b a := by
  have hsymm : a.equal b = b.equal a := by
    rw [Bool.eq_iff_iff, equal_iff_deepEqual ha hb, equal_iff_deepEqual hb ha]
    exact ⟨DeepEqual.symm, DeepEqual.symm⟩
  rw [holds, holds, hsymm]

theorem lessOrEqual_trans (ha : a.IsExact) (hb : b.IsExact) (hc : c.IsExact)
    (h : lessOrEqual.holds a b = true) (h' : lessOrEqual.holds b c = true) :
    lessOrEqual.holds a c = true := by
  rw [lessOrEqual_iff ha hb] at h
  rw [lessOrEqual_iff hb hc] at h'
  rw [lessOrEqual_iff ha hc]
  rcases h with hab | hab
  · rcases h' with hbc | hbc
    · exact .inl (hab.trans hbc)
    · exact .inl (hab.of_deepEqual_right hbc)
  · rcases h' with hbc | hbc
    · exact .inl (hbc.of_deepEqual_left hab.symm)
    · exact .inr (hab.trans hbc)

theorem lessOrEqual_antisymm (ha : a.IsExact) (hb : b.IsExact) :
    lessOrEqual.holds a b = true ∧ lessOrEqual.holds b a = true ↔ equal.holds a b = true := by
  rw [lessOrEqual_iff ha hb, lessOrEqual_iff hb ha, holds, equal_iff_deepEqual ha hb]
  constructor
  · rintro ⟨hab | hab, hba | hba⟩
    · exact absurd hba hab.asymm
    · exact hba.symm
    · exact hab
    · exact hab
  · exact fun h => ⟨.inr h, .inr h.symm⟩

/-- Equal values compare alike with every other. -/
theorem less_congr (ha : a.IsExact) (hb : b.IsExact) (h : equal.holds a b = true) (c : Value) :
    less.holds a c = less.holds b c ∧ less.holds c a = less.holds c b := by
  have hequal := deepEqual_of_equal ha hb h
  constructor
  · rw [Bool.eq_iff_iff, holds, holds, less_iff_below, less_iff_below]
    exact ⟨fun hac => hac.of_deepEqual_left hequal, fun hbc => hbc.of_deepEqual_left hequal.symm⟩
  · rw [Bool.eq_iff_iff, holds, holds, less_iff_below, less_iff_below]
    exact ⟨fun hca => hca.of_deepEqual_right hequal, fun hcb => hcb.of_deepEqual_right hequal.symm⟩

theorem exactly_one (ha : a.IsExact) (hb : b.IsExact) (h : a.AreOrdered b) :
    (less.holds a b = true ∧ equal.holds a b = false ∧ greater.holds a b = false) ∨
    (less.holds a b = false ∧ equal.holds a b = true ∧ greater.holds a b = false) ∨
    (less.holds a b = false ∧ equal.holds a b = false ∧ greater.holds a b = true) := by
  simp only [← Bool.not_eq_true, holds, less_iff_below, equal_iff_deepEqual ha hb]
  rcases h.below_or_deepEqual_or_below ha hb with hab | hab | hba
  · exact .inl ⟨hab, hab.not_deepEqual, hab.asymm⟩
  · exact .inr (.inl ⟨fun h => h.not_deepEqual hab, hab, fun h => h.not_deepEqual hab.symm⟩)
  · exact .inr (.inr ⟨hba.asymm, fun h => hba.not_deepEqual h.symm, hba⟩)

theorem less_eq_false (h : ¬ a.AreOrdered b) : less.holds a b = false := by
  rw [← Bool.not_eq_true, holds, less_iff_below]
  exact fun hab => h hab.areOrdered

/-- **Coherence of the comparison operators.** On values of documents without a NaN, and nothing,
the first value is less than the second if it comes before it, and this strict order respects
equality. The other operators are what their signs say of the two relations, and less or equal is an
order up to equality. Two numbers and two strings are always less, equal or greater, and only one of
them; of other values none is less than another. -/
theorem holds_coherent (ha : a.IsExact) (hb : b.IsExact) (hc : c.IsExact) :
    (less.holds a b = true ↔ a.Below b) ∧
    less.holds a a = false ∧
    (less.holds a b = true → less.holds b c = true → less.holds a c = true) ∧
    (equal.holds a b = true ↔ a.DeepEqual b) ∧
    (equal.holds a b = true →
      less.holds a c = less.holds b c ∧ less.holds c a = less.holds c b) ∧
    greater.holds a b = less.holds b a ∧
    greaterOrEqual.holds a b = lessOrEqual.holds b a ∧
    (lessOrEqual.holds a b = true ↔ less.holds a b = true ∨ equal.holds a b = true) ∧
    (notEqual.holds a b = true ↔ ¬ equal.holds a b = true) ∧
    (lessOrEqual.holds a b = true → lessOrEqual.holds b c = true →
      lessOrEqual.holds a c = true) ∧
    (lessOrEqual.holds a b = true ∧ lessOrEqual.holds b a = true ↔ equal.holds a b = true) ∧
    (a.AreOrdered b →
      (less.holds a b = true ∧ equal.holds a b = false ∧ greater.holds a b = false) ∨
      (less.holds a b = false ∧ equal.holds a b = true ∧ greater.holds a b = false) ∨
      (less.holds a b = false ∧ equal.holds a b = false ∧ greater.holds a b = true)) ∧
    (¬ a.AreOrdered b → less.holds a b = false ∧ greater.holds a b = false) := by
  have hirrefl : less.holds a a = false := by
    rw [← Bool.not_eq_true, holds, less_iff_below]
    exact Below.irrefl
  have htrans (hab : less.holds a b = true) (hbc : less.holds b c = true) :
      less.holds a c = true :=
    less_iff_below.2 ((less_iff_below.1 hab).trans (less_iff_below.1 hbc))
  have hnotEqual : notEqual.holds a b = true ↔ ¬ equal.holds a b = true := by
    rw [holds, holds, Bool.not_eq_true, Bool.not_eq_true']
  exact ⟨less_iff_below, hirrefl, htrans, equal_iff_deepEqual ha hb,
    fun h => less_congr ha hb h c, rfl, greaterOrEqual_eq ha hb, Bool.or_eq_true_iff, hnotEqual,
    lessOrEqual_trans ha hb hc, lessOrEqual_antisymm ha hb, exactly_one ha hb,
    fun h => ⟨less_eq_false h, less_eq_false fun h' => h h'.symm⟩⟩

/-- The two zeros, one an integer, are below the same infinity and neither below the other; a string
and an array of it are not ordered. -/
theorem holds_coherent_zeros :
    let zero : Value := .number (.integer 0)
    let minusZero : Value := .number (.double (.finite true .zero))
    let infinity : Value := .number (.double (.infinite false))
    let text : Value := .string "a"
    zero.IsExact ∧ minusZero.IsExact ∧ infinity.IsExact ∧ text.IsExact ∧
      zero.AreOrdered minusZero ∧ ¬ text.AreOrdered (.array [text]) ∧
      equal.holds zero minusZero = true ∧ less.holds zero minusZero = false ∧
      less.holds minusZero infinity = true ∧ less.holds zero infinity = true ∧
      lessOrEqual.holds zero infinity = true ∧ greaterOrEqual.holds minusZero zero = true ∧
      less.holds text (.array [text]) = false ∧ greater.holds text (.array [text]) = false := by
  intro zero minusZero infinity text
  have hzero : zero.IsExact := ⟨.inl (by decide), by decide⟩
  have hminusZero : minusZero.IsExact := ⟨.inl (by decide), by decide⟩
  have hinfinity : infinity.IsExact := ⟨.inl (by decide), by decide⟩
  have htext : text.IsExact := ⟨.inl (by decide), by decide⟩
  have harray : (Value.array [text]).IsExact := ⟨.inl (by decide), by decide⟩
  have hordered : zero.AreOrdered minusZero := .numbers
  have hunordered : ¬ text.AreOrdered (.array [text]) :=
    (nofun : ¬ (Value.string "a").AreOrdered (.array [text]))
  have hequal : equal.holds zero minusZero = true := by decide +kernel
  have hbelow : less.holds minusZero infinity = true := by decide +kernel
  obtain ⟨-, -, -, -, hcongr, -, hgreaterOrEqual, -, -, -, hboth, hone, -⟩ :=
    holds_coherent hzero hminusZero hinfinity
  have hless : less.holds zero infinity = true := (hcongr hequal).1.trans hbelow
  have hnotLess : less.holds zero minusZero = false := by
    rcases hone hordered with ⟨-, h, -⟩ | ⟨h, -⟩ | ⟨h, -⟩
    · exact absurd hequal (ne_true_of_eq_false h)
    · exact h
    · exact h
  obtain ⟨-, -, -, -, -, -, -, hlessOrEqual, -⟩ := holds_coherent hzero hinfinity hinfinity
  obtain ⟨-, -, -, -, -, -, hmirror, -⟩ := holds_coherent hminusZero hzero hzero
  obtain ⟨-, -, -, -, -, -, -, -, -, -, -, -, hneither⟩ := holds_coherent htext harray htext
  exact ⟨hzero, hminusZero, hinfinity, htext, hordered, hunordered, hequal, hnotLess, hbelow,
    hless, hlessOrEqual.2 (.inl hless), hmirror.trans (hboth.2 hequal).1, hneither hunordered⟩

end Comparison

end JsonPath
