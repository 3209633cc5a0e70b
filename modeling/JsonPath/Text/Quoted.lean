import JsonPath.Text.Escape
import JsonPath.Text.Hex
import JsonPath.Unicode.Printable

/-!
Quoted texts, in the three notations that the library writes: JSON string literals in ASCII, the
names of normalized paths, and the quotations of diagnostics.
-/

namespace JsonPath.Text

/-- One character of a JSON literal: what is no printable ASCII character is escaped, above U+FFFF
as two surrogates. -/
def jsonChar (c : CodePoint) : List CodePoint :=
  if c = '"' ∨ c = '\\' then ['\\', c]
  else if ' ' ≤ c ∧ c ≤ '~' then [c]
  else match shortEscape? c with
    | some letter => ['\\', letter]
    | none => (utf16 c).flatMap fun unit => '\\' :: 'u' :: hex 4 unit

def jsonLiteral (s : Text) : Text :=
  ⟨('"' : CodePoint) :: s.toList.flatMap jsonChar ++ [('"' : CodePoint)]⟩

/-- One character of a name in a normalized path: a quote, a backslash or a control character is
escaped, and all else stands for itself. -/
def nameChar (c : CodePoint) : List CodePoint :=
  if c = '\'' ∨ c = '\\' then ['\\', c]
  else match shortEscape? c with
    | some letter => ['\\', letter]
    | none => if c < ' ' then '\\' :: 'u' :: hex 4 c.toNat else [c]

def normalizedName (s : Text) : Text :=
  ⟨('\'' : CodePoint) :: s.toList.flatMap nameChar ++ [('\'' : CodePoint)]⟩

def quotedChar (quote c : CodePoint) : List CodePoint :=
  if c = quote ∨ c = '\\' then ['\\', c]
  else match c with
    | '\n' => ['\\', 'n']
    | '\r' => ['\\', 'r']
    | '\t' => ['\\', 't']
    | _ =>
      if Unicode.isPrintable c then [c]
      else if c.toNat < 0x100 then '\\' :: 'x' :: hex 2 c.toNat
      else if c.toNat < 0x10000 then '\\' :: 'u' :: hex 4 c.toNat
      else '\\' :: 'U' :: hex 8 c.toNat

/-- The text as diagnostics quote it: between single quotes, or between double quotes if it holds
a single and no double quote. -/
def quoted (s : Text) : Text :=
  let quote : CodePoint := if s.toList.contains '\'' && !s.toList.contains '"' then '"' else '\''
  ⟨quote :: s.toList.flatMap (quotedChar quote) ++ [quote]⟩

end JsonPath.Text
