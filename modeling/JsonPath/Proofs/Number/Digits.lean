import JsonPath.Number.Decimal
import JsonPath.Proofs.Number.Spelling
import Mathlib.Data.List.Induction
import Mathlib.Tactic.ByContra
import Mathlib.Tactic.Ring

/-!
# Digits that are written

Numbers are written in ASCII digits. Read again, they have the value that was written, and only zero
starts with a zero.
-/

namespace JsonPath

namespace Unicode

theorem digitValue?_of_isDigit {c : CodePoint} (h : c.isDigit = true) :
    digitValue? c = some (c.toNat - 48) := by
  have hbetween : 48 ≤ c.toNat ∧ c.toNat < 48 + 10 := by
    unfold CodePoint.isDigit at h
    simp only [Bool.and_eq_true, decide_eq_true_eq] at h
    exact ⟨h.1, Nat.lt_succ_of_le h.2⟩
  have hfind : digitZeros.find? (fun z => z ≤ c.toNat && c.toNat < z + 10) = some 48 := by
    unfold digitZeros
    rw [List.find?_cons_of_pos (by simp [hbetween])]
  unfold digitValue?
  rw [hfind]
  rfl

theorem isDigit_of_isDigit {c : CodePoint} (h : c.isDigit = true) : isDigit c = true := by
  unfold isDigit
  rw [digitValue?_of_isDigit h]
  rfl

theorem digitsValue_append (a b : List CodePoint) :
    digitsValue (a ++ b) = digitsValue a * 10 ^ b.length + digitsValue b := by
  unfold digitsValue
  rw [List.foldl_append]
  generalize a.foldl _ 0 = start
  induction b using List.reverseRecOn with
  | nil => simp
  | append_singleton b c ih =>
    rw [List.foldl_append, List.foldl_append, ih, List.length_append, Nat.pow_add]
    simp only [List.foldl_cons, List.foldl_nil, List.length_singleton]
    ring

theorem isDigit_scalar (c : Char) : (CodePoint.scalar c).isDigit = c.isDigit := by
  simp only [CodePoint.isDigit, Char.isDigit, CodePoint.le_def, CodePoint.toNat_scalar, ge_iff_le,
    UInt32.le_iff_toNat_le]
  rfl

theorem digitsValue_eq_ofDigitChars {cs : List Char} (h : ∀ c ∈ cs, c.isDigit = true) :
    digitsValue (cs.map .scalar) = Nat.ofDigitChars 10 cs 0 := by
  have hfold (start : Nat) :
      (cs.map CodePoint.scalar).foldl (fun n c => 10 * n + (digitValue? c).getD 0) start =
        Nat.ofDigitChars 10 cs start := by
    induction cs generalizing start with
    | nil => rfl
    | cons c cs ih =>
      obtain ⟨hc, hcs⟩ := List.forall_mem_cons.1 h
      rw [List.map_cons, List.foldl_cons,
        digitValue?_of_isDigit ((isDigit_scalar c).trans hc), Nat.ofDigitChars_cons]
      exact ih hcs _
  exact hfold 0

theorem digitsValue_zeros (n : Nat) : digitsValue (List.replicate n '0') = 0 := by
  rw [← List.map_replicate (f := CodePoint.scalar), digitsValue_eq_ofDigitChars,
    Nat.ofDigitChars_replicate_zero, Nat.mul_zero]
  intro c hc
  rw [List.eq_of_mem_replicate hc]
  rfl

end Unicode

theorem isDigit_of_mem_digits {n : Nat} {c : CodePoint} (h : c ∈ Text.digits 10 n) :
    c.isDigit = true := by
  obtain ⟨char, hchar, rfl⟩ := List.mem_map.1 h
  rw [Unicode.isDigit_scalar]
  exact Nat.isDigit_of_mem_toDigits (by decide) (by decide) hchar

theorem digitsValue_digits (n : Nat) : Unicode.digitsValue (Text.digits 10 n) = n := by
  unfold Text.digits
  rw [Unicode.digitsValue_eq_ofDigitChars fun _ =>
    Nat.isDigit_of_mem_toDigits (by decide) (by decide), Nat.ofDigitChars_ten_toDigits]

theorem head?_digits {n : Nat} (hn : n ≠ 0) : (Text.digits 10 n).head? ≠ some '0' := by
  induction n using Nat.strongRecOn with
  | ind n ih =>
    rw [Text.digits_eq_if (by decide)]
    split
    next hlt =>
      have hchar : ∀ k < 10, k ≠ 0 → Nat.digitChar k ≠ '0' := by decide
      simpa using hchar n hlt hn
    next hge =>
      have hhead := ih (n / 10) (by omega) (by omega)
      obtain ⟨c, cs, hcs⟩ := List.exists_cons_of_ne_nil (Text.digits_ne_nil 10 (n / 10))
      rw [hcs] at hhead ⊢
      simpa using hhead

theorem lt_pow_decimalLength (n : Nat) : n < 10 ^ decimalLength n :=
  (Nat.length_toDigits_le_iff (by decide) Nat.length_toDigits_pos).1 (Nat.le_refl _)

theorem pow_decimalLength_le {n : Nat} (hn : n ≠ 0) : 10 ^ (decimalLength n - 1) ≤ n := by
  by_cases hone : decimalLength n - 1 = 0
  · rw [hone]
    exact Nat.pos_of_ne_zero hn
  · by_contra hlt
    have hle := (Nat.length_toDigits_le_iff (by decide) (Nat.pos_of_ne_zero hone)).2
      (Nat.lt_of_not_le hlt)
    have hpos : 0 < decimalLength n := Nat.length_toDigits_pos
    unfold decimalLength at *
    omega

end JsonPath
