import JsonPath.Text

/-!
Hexadecimal digits, read in either case and written in lower case.
-/

namespace JsonPath.Text

def hexValue? (c : CodePoint) : Option Nat :=
  if '0' ≤ c ∧ c ≤ '9' then some (c.toNat - 48)
  else if 'a' ≤ c ∧ c ≤ 'f' then some (c.toNat - 87)
  else if 'A' ≤ c ∧ c ≤ 'F' then some (c.toNat - 55)
  else none

def hexNumber? (digits : List CodePoint) : Option Nat :=
  if digits.isEmpty then none
  else digits.foldlM (fun n c => (hexValue? c).map (16 * n + ·)) 0

def hex (width n : Nat) : List CodePoint :=
  let digits := Text.digits 16 n
  List.replicate (width - digits.length) ('0' : CodePoint) ++ digits

/-- The UTF-16 units of a character: itself, or a high and a low surrogate above U+FFFF. -/
def utf16 (c : CodePoint) : List Nat :=
  if c.toNat < 0x10000 then [c.toNat]
  else
    let above := c.toNat - 0x10000
    [0xD800 + above / 0x400, 0xDC00 + above % 0x400]

/-- The number of the character above U+FFFF that a surrogate pair stands for. -/
def joinSurrogates (high low : Nat) : Nat :=
  0x10000 + (high - 0xD800) * 0x400 + (low - 0xDC00)

def isHighSurrogate (unit : Nat) : Bool := 0xD800 ≤ unit && unit ≤ 0xDBFF

def isLowSurrogate (unit : Nat) : Bool := 0xDC00 ≤ unit && unit ≤ 0xDFFF

end JsonPath.Text
