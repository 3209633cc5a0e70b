/-!
Code points: the characters of texts. Besides the scalar values there are the surrogates, which come
in pairs in UTF-16, but which a text can also hold one by one.
-/

namespace JsonPath

/-- A character, or one of the 2048 surrogates by its place among them. -/
inductive CodePoint where
  | scalar (c : Char)
  | surrogate (place : Fin 2048)
deriving DecidableEq, Repr

namespace CodePoint

instance : Coe Char CodePoint := ⟨scalar⟩

instance : Inhabited CodePoint := ⟨scalar ' '⟩

def toNat : CodePoint → Nat
  | scalar c => c.toNat
  | surrogate place => 0xD800 + place

/-- The code point with a number below `0x110000`. -/
def ofNat (n : Nat) : CodePoint :=
  if h : 0xD800 ≤ n ∧ n ≤ 0xDFFF then surrogate ⟨n - 0xD800, by omega⟩ else scalar (Char.ofNat n)

def char? : CodePoint → Option Char
  | scalar c => some c
  | surrogate _ => none

def isSurrogate : CodePoint → Bool
  | scalar _ => false
  | surrogate _ => true

/-- Scalar values are all code points but the surrogates. -/
def IsScalar (c : CodePoint) : Prop := c.isSurrogate = false

instance (c : CodePoint) : Decidable c.IsScalar := inferInstanceAs (Decidable (_ = _))

instance : LT CodePoint := ⟨fun a b => a.toNat < b.toNat⟩

instance : LE CodePoint := ⟨fun a b => a.toNat ≤ b.toNat⟩

instance : DecidableLT CodePoint := fun a b => inferInstanceAs (Decidable (a.toNat < b.toNat))

instance : DecidableLE CodePoint := fun a b => inferInstanceAs (Decidable (a.toNat ≤ b.toNat))

theorem le_def {a b : CodePoint} : a ≤ b ↔ a.toNat ≤ b.toNat := Iff.rfl

@[simp] theorem toNat_scalar (c : Char) : (scalar c).toNat = c.toNat := rfl

/-! ### Classes of ASCII -/

def isDigit (c : CodePoint) : Bool := '0' ≤ c && c ≤ '9'

def isLower (c : CodePoint) : Bool := 'a' ≤ c && c ≤ 'z'

def isUpper (c : CodePoint) : Bool := 'A' ≤ c && c ≤ 'Z'

def isAlpha (c : CodePoint) : Bool := c.isLower || c.isUpper

def isAlphanum (c : CodePoint) : Bool := c.isAlpha || c.isDigit

def toLower (c : CodePoint) : CodePoint := if c.isUpper then ofNat (c.toNat + 32) else c

/-! ### Numbers of code points -/

theorem isValidChar_toNat (c : Char) : (scalar c).toNat.isValidChar := c.valid

theorem toNat_lt (c : CodePoint) : c.toNat < 0x110000 := by
  cases c with
  | scalar c =>
    rcases isValidChar_toNat c with h | h
    · exact Nat.lt_trans h (by decide)
    · exact h.2
  | surrogate place => exact Nat.lt_of_lt_of_le (Nat.add_lt_add_left place.isLt _) (by decide)

theorem isSurrogate_iff {c : CodePoint} :
    c.isSurrogate = true ↔ 0xD800 ≤ c.toNat ∧ c.toNat ≤ 0xDFFF := by
  cases c with
  | scalar c =>
    have := isValidChar_toNat c
    simp only [Nat.isValidChar, isSurrogate, Bool.false_eq_true, false_iff] at this ⊢
    omega
  | surrogate place =>
    have := place.isLt
    simp only [isSurrogate, toNat, true_iff]
    omega

theorem isScalar_iff {c : CodePoint} : c.IsScalar ↔ c.toNat < 0xD800 ∨ 0xDFFF < c.toNat := by
  rw [IsScalar, Bool.eq_false_iff, Ne, isSurrogate_iff]
  omega

theorem ofNat_toNat (c : CodePoint) : ofNat c.toNat = c := by
  by_cases h : c.isSurrogate = true
  · rw [ofNat, dif_pos (isSurrogate_iff.1 h)]
    cases c with
    | scalar => cases h
    | surrogate place => simp [toNat]
  · rw [ofNat, dif_neg (h ∘ isSurrogate_iff.2)]
    cases c with
    | scalar c => rw [toNat, Char.ofNat_toNat]
    | surrogate place => exact absurd rfl h

theorem toNat_inj {a b : CodePoint} : a.toNat = b.toNat ↔ a = b := by
  refine ⟨fun h => ?_, congrArg toNat⟩
  rw [← ofNat_toNat a, h, ofNat_toNat]

theorem toNat_ofNat {n : Nat} (h : n < 0x110000) : (ofNat n).toNat = n := by
  by_cases hrange : 0xD800 ≤ n ∧ n ≤ 0xDFFF
  · rw [ofNat, dif_pos hrange, toNat, Nat.add_sub_cancel' hrange.1]
  · have hvalid : n.isValidChar := by
      unfold Nat.isValidChar
      omega
    rw [ofNat, dif_neg hrange, toNat, Char.ofNat, dif_pos hvalid]
    rfl

end CodePoint

end JsonPath
