import JsonPath.Proofs.Canonical.Literals
import JsonPath.Proofs.Parser.Soundness

/-!
# What is written in a query

Besides its types, the tokens of a query leave other marks in the tree: integers are short and
indices within their bounds, functions have the names of functions, brackets are not empty, and what
stands as a test is none of the expressions that have to be compared.
-/

namespace JsonPath

open Grammar (Derives IsTest)

/-- The integer can be an index or a bound of a slice. -/
structure Dialect.Allows (dialect : Dialect) (i : Int) : Prop where
  short : IsShort i
  least : dialect.leastIndex ≤ i
  greatest : i ≤ dialect.greatestIndex

/-- The expression can stand as a test. -/
def Expr.IsTested (signatures : Signatures) (e : Expr) : Prop :=
  ¬ e.IsLiteral ∧ IsTest signatures e

mutual

def Expr.Proper (dialect : Dialect) : Expr → Prop
  | .literal _ literal => literal.Proper
  | .negation _ operand => operand.Proper dialect ∧ operand.IsTested dialect.signatures
  | .conjunction _ left right =>
    left.Proper dialect ∧ right.Proper dialect ∧
      left.IsTested dialect.signatures ∧ right.IsTested dialect.signatures
  | .disjunction _ left right =>
    left.Proper dialect ∧ right.Proper dialect ∧
      left.IsTested dialect.signatures ∧ right.IsTested dialect.signatures
  | .comparison _ left _ right => left.Proper dialect ∧ right.Proper dialect
  | .relative _ segments => segmentsProper dialect segments
  | .absolute _ segments => segmentsProper dialect segments
  | .call _ name arguments =>
    Lexer.IsFunctionName name.toList ∧ argumentsProper dialect arguments

def argumentsProper (dialect : Dialect) : List Expr → Prop
  | [] => True
  | argument :: rest => argument.Proper dialect ∧ argumentsProper dialect rest

def Selector.Proper (dialect : Dialect) : Selector → Prop
  | .index _ index => dialect.Allows index
  | .slice _ start? stop? step? =>
    (∀ i ∈ start?, dialect.Allows i) ∧ (∀ i ∈ stop?, dialect.Allows i) ∧
      ∀ i ∈ step?, dialect.Allows i
  | .filter _ expression =>
    expression.Proper dialect ∧ expression.IsTested dialect.signatures
  | _ => True

def selectorsProper (dialect : Dialect) : List Selector → Prop
  | [] => True
  | selector :: rest => selector.Proper dialect ∧ selectorsProper dialect rest

def Segment.Proper (dialect : Dialect) : Segment → Prop
  | .child _ selectors => selectors ≠ [] ∧ selectorsProper dialect selectors
  | .descendant _ selectors => selectors ≠ [] ∧ selectorsProper dialect selectors

def segmentsProper (dialect : Dialect) : List Segment → Prop
  | [] => True
  | segment :: rest => segment.Proper dialect ∧ segmentsProper dialect rest

end

/-! ### Short integers -/

theorem Unicode.digitValue?_lt {c : CodePoint} {k : Nat} (h : digitValue? c = some k) : k < 10 := by
  obtain ⟨start, hstart, rfl⟩ := Option.map_eq_some_iff.1 h
  have hrun := List.find?_some hstart
  simp only [Bool.and_eq_true, decide_eq_true_eq] at hrun
  omega

theorem Unicode.digitsValue_lt (digits : List CodePoint) :
    digitsValue digits < 10 ^ digits.length := by
  induction digits using List.reverseRecOn with
  | nil => decide
  | append_singleton digits c ih =>
    have hdigit : digitsValue [c] < 10 := by
      change 10 * 0 + (digitValue? c).getD 0 < 10
      cases hc : digitValue? c with
      | none => decide
      | some k => simpa using digitValue?_lt hc
    rw [digitsValue_append, List.length_append, Nat.pow_add]
    simp only [List.length_singleton, Nat.pow_one]
    omega

theorem Numeral.isShort_integerValue {n : Numeral} (h : n.whole.length ≤ longestInteger) :
    IsShort n.integerValue := by
  have hvalue : n.integerValue.natAbs = Unicode.digitsValue n.whole := by
    unfold integerValue
    split <;> omega
  have hlt := Unicode.digitsValue_lt n.whole
  unfold IsShort
  rw [hvalue, Text.length_digits]
  refine (Nat.length_toDigits_le_iff (by decide) (by decide)).2 (Nat.lt_of_lt_of_le hlt ?_)
  exact Nat.pow_le_pow_right (by decide) h

/-! ### What is derived is proper -/

variable {dialect : Dialect} {ts : List Token}

theorem Grammar.Index.allows {token : Token} {i : Int} (h : Index dialect token i) :
    dialect.Allows i := by
  obtain ⟨-, -, ⟨n, -, -, hlength, rfl⟩, hleast, hgreatest⟩ := h
  exact ⟨Numeral.isShort_integerValue hlength, hleast, hgreatest⟩

theorem Grammar.Bound.allows {i? : Option Int} (h : Bound dialect ts i?) :
    ∀ i ∈ i?, dialect.Allows i := by
  cases h with
  | absent => simp
  | present h =>
    rintro _ ⟨⟩
    exact h.allows

theorem Grammar.Stride.allows {i? : Option Int} (h : Stride dialect ts i?) :
    ∀ i ∈ i?, dialect.Allows i := by
  cases h with
  | absent => simp
  | present _ h => exact h.allows

theorem Double.ofRatio_ne_nan (negative : Bool) (numerator denominator : Nat) :
    ofRatio negative numerator denominator ≠ .nan := by
  unfold ofRatio
  cases Magnitude.ofRatio? numerator denominator <;> simp

theorem Decimal.toDouble_ne_nan (d : Decimal) : d.toDouble ≠ .nan := by
  unfold toDouble
  dsimp only
  split
  · simp
  · split
    · simp
    · split <;> exact Double.ofRatio_ne_nan _ _ _

theorem Grammar.Writes.proper {token : Token} {literal : Literal} (h : Writes token literal) :
    literal.Proper := by
  cases h with
  | integer _ _ _ _ hlength => exact Numeral.isShort_integerValue hlength
  | decimal => exact Decimal.toDouble_ne_nan _
  | string | true | false | null => trivial

def Grammar.Nonterminal.Proper (dialect : Dialect) : (n : Nonterminal) → n.Tree → Prop
  | .query, segs | .segments, segs => segmentsProper dialect segs
  | .segment, seg => seg.Proper dialect
  | .shorthand, sels | .bracketed, sels | .selectors, sels =>
    sels ≠ [] ∧ selectorsProper dialect sels
  | .selector, sel => sel.Proper dialect
  | .arguments, given => argumentsProper dialect given
  | .disjunction, e | .conjunction, e | .basic, e | .unary, e | .comparable, e | .literal, e
  | .path, e | .call, e | .argument, e => e.Proper dialect

theorem Grammar.Derives.proper {n : Nonterminal} {tree : n.Tree} (h : Derives dialect n ts tree)
    (hts : ∀ t ∈ ts, t.Scanned) : Nonterminal.Proper dialect n tree := by
  induction h with
  | noSegments => trivial
  | moreSegments _ _ ih ihMore =>
    simp only [List.forall_mem_append] at hts
    exact ⟨ih hts.1, ihMore hts.2⟩
  | member | anyMember => exact ⟨by simp, trivial, trivial⟩
  | lastSelector _ ih => exact ⟨by simp, ih hts, trivial⟩
  | moreSelectors _ _ _ ih ihMore =>
    simp only [List.forall_mem_append, List.forall_mem_cons] at hts
    exact ⟨by simp, ih hts.1, (ihMore hts.2.2).2⟩
  | name | wildcard => trivial
  | index h => exact h.allows
  | slice hstart _ hstop hstride => exact ⟨hstart.allows, hstop.allows, hstride.allows⟩
  | literal h => exact h.proper
  | disjunction hleft _ hright htest htest' ih ihRight
  | conjunction hleft _ hright htest htest' ih ihRight =>
    simp only [List.forall_mem_append, List.forall_mem_cons] at hts
    exact ⟨ih hts.1, ihRight hts.2.2, ⟨hleft.not_isLiteral, htest⟩,
      hright.not_isLiteral, htest'⟩
  | comparison _ _ _ ih ihRight =>
    simp only [List.forall_mem_append, List.forall_mem_cons] at hts
    exact ⟨ih hts.1, ihRight hts.2.2⟩
  | emptyCall hfunction =>
    exact ⟨(hts _ List.mem_cons_self).function hfunction, trivial⟩
  | call hfunction _ _ _ _ ih =>
    simp only [List.forall_mem_append, List.forall_mem_cons] at hts
    exact ⟨hts.1.function hfunction, ih hts.2.2.1⟩
  | lastArgument _ ih => exact ⟨ih hts, trivial⟩
  | moreArguments _ _ _ ih ihMore =>
    simp only [List.forall_mem_append, List.forall_mem_cons] at hts
    exact ⟨ih hts.1, ihMore hts.2.2⟩
  | filter _ he htest ih => exact ⟨ih (List.forall_mem_cons.1 hts).2, he.not_isLiteral, htest⟩
  | negation _ he htest ih =>
    exact ⟨ih (List.forall_mem_cons.1 hts).2, he.not_isLiteral, htest⟩
  | bracketed _ _ _ ih | group _ _ _ _ ih =>
    simp only [List.forall_mem_append, List.forall_mem_cons] at hts
    exact ih hts.2.1
  | query _ _ ih | child _ _ ih | descendant _ _ ih | descendantBracketed _ _ ih | absolute _ _ ih
  | relative _ _ ih => exact ih (List.forall_mem_cons.1 hts).2
  | childBracketed _ ih | oneConjunction _ ih | oneBasic _ ih | oneUnary _ ih | unaryPath _ ih
  | unaryCall _ ih | comparableLiteral _ ih | comparablePath _ _ ih | comparableCall _ _ ih
  | literalArgument _ ih | logicalArgument _ ih => exact ih hts

end JsonPath
