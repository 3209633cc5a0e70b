import JsonPath.Text.CodePoint

/-!
Texts: sequences of code points. Fixed texts are written as strings, which hold scalar values only;
a text that is read from elsewhere can hold surrogates.
-/

namespace JsonPath

/-- A text, by its code points. -/
structure Text where
  ofList ::
  toList : List CodePoint
deriving DecidableEq, Repr

namespace Text

def ofString (s : String) : Text := ⟨s.toList.map .scalar⟩

instance : Coe String Text := ⟨ofString⟩

instance : Inhabited Text := ⟨⟨[]⟩⟩

instance : Append Text := ⟨fun a b => ⟨a.toList ++ b.toList⟩⟩

/-- Texts are in the order of their code points. -/
instance : LT Text := ⟨fun a b => a.toList < b.toList⟩

instance : DecidableLT Text := fun a b => inferInstanceAs (Decidable (a.toList < b.toList))

def length (t : Text) : Nat := t.toList.length

def isEmpty (t : Text) : Bool := t.toList.isEmpty

def singleton (c : CodePoint) : Text := ⟨[c]⟩

def join (texts : List Text) : Text := ⟨texts.flatMap toList⟩

def intercalate (separator : Text) (texts : List Text) : Text :=
  ⟨separator.toList.intercalate (texts.map toList)⟩

/-- The string with the code points of a text that holds no surrogate. -/
def string? (t : Text) : Option String :=
  (t.toList.mapM CodePoint.char?).map String.ofList

def digits (base n : Nat) : List CodePoint := (Nat.toDigits base n).map .scalar

def ofNat (n : Nat) : Text := ⟨digits 10 n⟩

def ofInt (n : Int) : Text := if n < 0 then "-" ++ ofNat n.natAbs else ofNat n.natAbs

theorem digits_eq_if {base : Nat} (hbase : 1 < base) (n : Nat) :
    digits base n =
      if n < base then [.scalar n.digitChar]
      else digits base (n / base) ++ [.scalar (n % base).digitChar] := by
  unfold digits
  rw [Nat.toDigits_eq_if hbase, apply_ite (List.map CodePoint.scalar), List.map_append]
  rfl

@[simp] theorem digits_ne_nil (base n : Nat) : digits base n ≠ [] := by
  simp [digits, Nat.toDigits_ne_nil]

theorem length_digits (base n : Nat) : (digits base n).length = (Nat.toDigits base n).length :=
  List.length_map _

theorem toList_injective {a b : Text} (h : a.toList = b.toList) : a = b := by
  cases a
  exact congrArg ofList h

theorem toList_inj {a b : Text} : a.toList = b.toList ↔ a = b :=
  ⟨toList_injective, congrArg toList⟩

@[simp] theorem toList_ofList {cs : List CodePoint} : (ofList cs).toList = cs := rfl

@[simp] theorem ofList_toList {t : Text} : ofList t.toList = t := rfl

@[simp] theorem toList_append {a b : Text} : (a ++ b).toList = a.toList ++ b.toList := rfl

@[simp] theorem toList_ofString {s : String} : (ofString s).toList = s.toList.map .scalar := rfl

@[simp] theorem length_ofList {cs : List CodePoint} : (ofList cs).length = cs.length := rfl

@[simp] theorem length_toList {t : Text} : t.toList.length = t.length := rfl

@[simp] theorem empty_append (a : Text) : "" ++ a = a := rfl

@[simp] theorem append_empty (a : Text) : a ++ "" = a :=
  toList_injective (List.append_nil _)

theorem append_assoc (a b c : Text) : a ++ b ++ c = a ++ (b ++ c) :=
  toList_injective (List.append_assoc _ _ _)

theorem toList_eq_nil_iff {t : Text} : t.toList = [] ↔ t = "" := toList_inj (b := "")

section Intercalate

variable {separator a b : Text} {texts : List Text}

theorem intercalate_singleton : intercalate separator [a] = a := by
  simp [intercalate, List.intercalate]

theorem intercalate_cons_of_ne_nil (h : texts ≠ []) :
    intercalate separator (a :: texts) = a ++ separator ++ intercalate separator texts := by
  cases texts with
  | nil => contradiction
  | cons b texts => exact toList_injective (by simp [intercalate, List.intercalate])

theorem intercalate_cons_cons :
    intercalate separator (a :: b :: texts) =
      a ++ separator ++ intercalate separator (b :: texts) :=
  intercalate_cons_of_ne_nil (List.cons_ne_nil b texts)

end Intercalate

end Text

end JsonPath
