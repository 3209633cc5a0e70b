import JsonPath.Number
import JsonPath.Text.Quoted
import JsonPath.Unicode.Digit
import JsonPath.Unicode.Space

/-!
Numbers as they are written: a sign, a whole part, and perhaps a fraction and an exponent. Which
characters are digits, and how far the whole part reaches, is for the notation at hand to say.
-/

namespace JsonPath

structure Numeral where
  negative : Bool
  whole : List CodePoint
  fraction? : Option (List CodePoint)
  exponent? : Option (Bool × List CodePoint)
deriving DecidableEq, Repr

inductive NumeralFault where
  | notInteger (text : Text)
  | notDecimal (text : Text)
  | tooLong (digits : Nat)
deriving DecidableEq, Repr

/-- Integers are read up to this number of digits. -/
def longestInteger : Nat := 4300

def NumeralFault.message : NumeralFault → Text
  | notInteger text => "invalid literal for int() with base 10: " ++ Text.quoted text
  | notDecimal text => "could not convert string to float: " ++ Text.quoted text
  | tooLong digits =>
    "Exceeds the limit (" ++ Text.ofNat longestInteger ++
      " digits) for integer string conversion: value has " ++
      .ofNat digits ++ " digits; use sys.set_int_max_str_digits() to increase the limit"

namespace Numeral

def spanDigits (digit : CodePoint → Bool) (cs : List CodePoint) : List CodePoint × List CodePoint :=
  (cs.takeWhile digit, cs.dropWhile digit)

theorem spanDigits_append (digit : CodePoint → Bool) (cs : List CodePoint) :
    (spanDigits digit cs).1 ++ (spanDigits digit cs).2 = cs :=
  List.takeWhile_append_dropWhile

def splitMinus : List CodePoint → Bool × List CodePoint
  | '-' :: rest => (true, rest)
  | cs => (false, cs)

def splitSign : List CodePoint → Bool × List CodePoint
  | '-' :: rest => (true, rest)
  | '+' :: rest => (false, rest)
  | cs => (false, cs)

def scanFraction (digit : CodePoint → Bool) : List CodePoint →
    Option (List CodePoint) × List CodePoint
  | '.' :: rest =>
    match rest.takeWhile digit with
    | [] => (none, '.' :: rest)
    | digits => (some digits, rest.dropWhile digit)
  | cs => (none, cs)

def scanExponent (digit : CodePoint → Bool) : List CodePoint →
    Option (Bool × List CodePoint) × List CodePoint
  | [] => (none, [])
  | e :: rest =>
    if e = 'e' ∨ e = 'E' then
      let signed := splitSign rest
      match signed.2.takeWhile digit with
      | [] => (none, e :: rest)
      | digits => (some (signed.1, digits), signed.2.dropWhile digit)
    else (none, e :: rest)

/-- The longest written number at the start of a text, and the text after it. The whole part is
what `wholePart` splits off, and has at least one digit. -/
def scan? (digit : CodePoint → Bool) (wholePart : List CodePoint → List CodePoint × List CodePoint)
    (cs : List CodePoint) : Option (Numeral × List CodePoint) :=
  let signed := splitMinus cs
  let parts := wholePart signed.2
  let fraction := scanFraction digit parts.2
  let exponent := scanExponent digit fraction.2
  if parts.1 = [] then none
  else some (⟨signed.1, parts.1, fraction.1, exponent.1⟩, exponent.2)

theorem length_splitMinus_le (cs : List CodePoint) : (splitMinus cs).2.length ≤ cs.length := by
  unfold splitMinus
  split <;> simp

theorem length_splitSign_le (cs : List CodePoint) : (splitSign cs).2.length ≤ cs.length := by
  unfold splitSign
  split <;> simp

theorem length_scanFraction_le (digit : CodePoint → Bool) (cs : List CodePoint) :
    (scanFraction digit cs).2.length ≤ cs.length := by
  unfold scanFraction
  split
  · split
    · exact Nat.le_refl _
    · exact Nat.le_succ_of_le (List.dropWhile_sublist digit).length_le
  · exact Nat.le_refl _

theorem length_scanExponent_le (digit : CodePoint → Bool) (cs : List CodePoint) :
    (scanExponent digit cs).2.length ≤ cs.length := by
  unfold scanExponent
  split
  · exact Nat.le_refl _
  next e rest =>
    split
    · dsimp only
      split
      · exact Nat.le_refl _
      · exact Nat.le_succ_of_le
          (Nat.le_trans (List.dropWhile_sublist digit).length_le (length_splitSign_le rest))
    · exact Nat.le_refl _

theorem length_of_scan? {digit : CodePoint → Bool}
    {wholePart : List CodePoint → List CodePoint × List CodePoint}
    (split : ∀ cs, (wholePart cs).1 ++ (wholePart cs).2 = cs) {cs rest : List CodePoint}
    {n : Numeral}
    (h : scan? digit wholePart cs = some (n, rest)) : rest.length < cs.length := by
  have hsign := length_splitMinus_le cs
  have hparts := congrArg List.length (split (splitMinus cs).2)
  have hfraction := length_scanFraction_le digit (wholePart (splitMinus cs).2).2
  have hexponent :=
    length_scanExponent_le digit (scanFraction digit (wholePart (splitMinus cs).2).2).2
  rw [List.length_append] at hparts
  unfold scan? at h
  dsimp only at h
  split at h
  · contradiction
  next hwhole =>
    have hpos := List.length_pos_iff.2 hwhole
    simp only [Option.some.injEq, Prod.mk.injEq] at h
    rw [← h.2]
    omega

def isInteger (n : Numeral) : Bool := n.fraction?.isNone && n.exponent?.isNone

def decimal (n : Numeral) : Decimal :=
  let fraction := n.fraction?.getD []
  let exponent : Int :=
    match n.exponent? with
    | some (true, digits) => -(Unicode.digitsValue digits : Int)
    | some (false, digits) => Unicode.digitsValue digits
    | none => 0
  ⟨n.negative, Unicode.digitsValue (n.whole ++ fraction), exponent - fraction.length⟩

def integer (negative : Bool) (digits : List CodePoint) : Except NumeralFault Int :=
  if longestInteger < digits.length then .error (.tooLong digits.length)
  else
    let size : Int := Unicode.digitsValue digits
    .ok (if negative then -size else size)

def number (n : Numeral) : Except NumeralFault Number :=
  if n.isInteger then (integer n.negative n.whole).map .integer
  else .ok (.double n.decimal.toDouble)

def trim (cs : List CodePoint) : List CodePoint :=
  ((cs.dropWhile Unicode.isWhiteSpace).reverse.dropWhile Unicode.isWhiteSpace).reverse

/-- The text without its underscores, each of which has to stand between two digits; the flag tells
whether a digit stands before the text. -/
def ungroup? : Bool → List CodePoint → Option (List CodePoint)
  | _, [] => some []
  | _, ['_'] => none
  | afterDigit, '_' :: c :: rest =>
    if afterDigit && Unicode.isDigit c then (ungroup? true rest).map (c :: ·) else none
  | _, c :: rest => (ungroup? (Unicode.isDigit c) rest).map (c :: ·)

/-- The integer that a whole text writes, with a sign of either kind, digits of any script grouped
by single underscores, and white space around it. -/
def readInteger (text : Text) : Except NumeralFault Int := do
  let signed := splitSign (trim text.toList)
  match ungroup? false signed.2 with
  | none => .error (.notInteger text)
  | some cs =>
    let parts := spanDigits Unicode.isDigit cs
    if parts.1 = [] then .error (.notInteger text)
    let n ← integer signed.1 parts.1
    if parts.2 = [] then return n else .error (.notInteger text)

def named? (negative : Bool) (cs : List CodePoint) : Option Double :=
  let word := Text.ofList (cs.map CodePoint.toLower)
  if word = "inf" ∨ word = "infinity" then some (.infinite negative)
  else if word = "nan" then some .nan
  else none

def pointed? (negative : Bool) (cs : List CodePoint) : Option Numeral :=
  let whole := spanDigits Unicode.isDigit cs
  let fraction :=
    match whole.2 with
    | '.' :: rest => spanDigits Unicode.isDigit rest
    | rest => ([], rest)
  let exponent := scanExponent Unicode.isDigit fraction.2
  if whole.1 ++ fraction.1 = [] ∨ exponent.2 ≠ [] then none
  else some ⟨negative, whole.1, some fraction.1, exponent.1⟩

/-- The binary64 number that a whole text writes, by a word or with a sign of either kind, digits of
any script grouped by single underscores, and white space around it. -/
def readDouble (text : Text) : Except NumeralFault Double :=
  let signed := splitSign (trim text.toList)
  match ungroup? false signed.2 with
  | none => .error (.notDecimal text)
  | some cs =>
    match named? signed.1 cs, pointed? signed.1 cs with
    | some d, _ => .ok d
    | none, some n => .ok n.decimal.toDouble
    | none, none => .error (.notDecimal text)

end Numeral

end JsonPath
