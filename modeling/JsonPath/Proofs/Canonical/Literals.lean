import JsonPath.Proofs.Number.Written
import JsonPath.Proofs.Parser.Grammar
import JsonPath.Proofs.Token.Lexing
import JsonPath.Query.Canonical

/-!
# The canonical texts of integers, names and literals

Each of them is one token, which the parser takes for the integer, the name or the literal again.
Only the infinite numbers have a text that is no token.
-/

namespace JsonPath

open Lexer (Lexes LexesIf Stops)

/-- The integer has no more digits than are read. -/
def IsShort (n : Int) : Prop := (Text.digits 10 n.natAbs).length ≤ longestInteger

/-- The literal can be written: its integer is not too long, and its number is a number. -/
def Literal.Proper : Literal → Prop
  | .number (.integer n) => IsShort n
  | .number (.double d) => d ≠ .nan
  | _ => True

def Literal.isFinite : Literal → Bool
  | .number (.double (.infinite _)) => false
  | _ => true

/-- What the token of the canonical text is. -/
def Literal.shape : Literal → Shape
  | .null => (.nullWord, "null")
  | .boolean true => (.trueWord, "true")
  | .boolean false => (.falseWord, "false")
  | .number (.integer n) => (.integer, Text.ofInt n)
  | .number (.double d) => (.decimal, Layout.json.double d)
  | .string s => (.doubleQuoted, Text.ofList (s.toList.flatMap Text.jsonChar))

variable {rest : List CodePoint}

/-! ### Integers -/

/-- The numeral that is written for an integer. -/
def Numeral.ofInteger (n : Int) : Numeral :=
  ⟨decide (n < 0), Text.digits 10 n.natAbs, none, none⟩

theorem toList_ofInt (n : Int) :
    (Text.ofInt n).toList = Numeral.minus (n < 0) ++ Text.digits 10 n.natAbs := by
  unfold Text.ofInt Numeral.minus
  by_cases hn : n < 0
  · rw [if_pos hn, Text.toList_append, decide_eq_true hn]
    rfl
  · rw [if_neg hn, decide_eq_false hn]
    rfl

theorem Numeral.spells_ofInteger (n : Int) :
    (Numeral.ofInteger n).Spells (Text.ofInt n).toList := by
  have hdigits (c : CodePoint) (hc : c ∈ Text.digits 10 n.natAbs) : Unicode.isDigit c = true :=
    Unicode.isDigit_of_isDigit (isDigit_of_mem_digits hc)
  have hne : Text.digits 10 n.natAbs ≠ [] := by simp
  refine ⟨hne, hdigits, [], [], .absent, .absent, ?_⟩
  rw [List.append_nil, List.append_nil]
  exact toList_ofInt n

theorem Numeral.integerValue_ofInteger (n : Int) : (Numeral.ofInteger n).integerValue = n := by
  unfold integerValue ofInteger
  simp only [digitsValue_digits, decide_eq_true_eq]
  split <;> omega

theorem lexes_integer (n : Int) (hrest : Numeral.EndsNumber rest) :
    Lexes (Text.ofInt n).toList [(.integer, Text.ofInt n)] rest := by
  have h := Lexer.lexes_number (Numeral.spells_ofInteger n) hrest
  rwa [Text.ofList_toList] at h

/-! ### Names -/

/-- What the token of the canonical text of a name is. -/
def nameShape (name : Text) : Shape :=
  (.singleQuoted, Text.ofList (name.toList.flatMap Text.nameChar))

theorem lexes_normalizedName (name : Text) :
    Lexes (Text.normalizedName name).toList [nameShape name] rest := by
  have hclosing := Lexer.closingQuote?_flatMap (.inl rfl) Text.spelled_nameChar name.toList rest
  have hlexes := Lexer.lexes_quoted rfl hclosing
  rwa [← List.cons_append] at hlexes

/-! ### Literals -/

theorem Layout.toList_double_finite (layout : Layout) (negative : Bool) (m : Magnitude) :
    (layout.double (.finite negative m)).toList = Numeral.minus negative ++ layout.magnitude m := by
  unfold double
  rw [Text.toList_append, Text.toList_ofList]
  cases negative <;> rfl

theorem Layout.toList_double_infinite (layout : Layout) (negative : Bool) :
    (layout.double (.infinite negative)).toList =
      Numeral.minus negative ++ layout.infinity.toList := by
  unfold double
  rw [Text.toList_append]
  cases negative <;> rfl

/-- The canonical text of a literal is its token, or no token if the literal is infinite. -/
theorem Literal.lexesIf_text (literal : Literal) (h : literal.Proper) (hrest : Stops rest) :
    LexesIf literal.isFinite literal.text.toList [literal.shape] rest := by
  match literal, h with
  | .null, _ => exact Lexer.lexes_word hrest (by decide)
  | .boolean true, _ => exact Lexer.lexes_word hrest (by decide)
  | .boolean false, _ => exact Lexer.lexes_word hrest (by decide)
  | .number (.integer n), _ => exact lexes_integer n hrest.endsNumber
  | .number (.double (.finite negative m)), _ =>
    obtain ⟨n, hspells, hinteger, -, -⟩ := Layout.reads_magnitude .json negative m
    have hlexes := Lexer.lexes_number hspells hrest.endsNumber
    rw [hinteger, ← Layout.toList_double_finite] at hlexes
    rwa [Text.ofList_toList] at hlexes
  | .number (.double (.infinite negative)), _ =>
    have htext : (Literal.number (.double (.infinite negative))).text.toList =
        Numeral.minus negative ++ ("Infinity" : Text).toList :=
          Layout.toList_double_infinite .json negative
    rw [htext]
    exact Lexer.refused_infinity negative
  | .string s, _ =>
    have hspelled (c : CodePoint) :
        StringLiteral.Spelled (fun _ => True) '"' c (Text.jsonChar c) :=
      Text.spelled_jsonChar trivial
    have hclosing := Lexer.closingQuote?_flatMap (.inr rfl) hspelled s.toList rest
    have hlexes := Lexer.lexes_quoted rfl hclosing
    rwa [← List.cons_append] at hlexes

end JsonPath
