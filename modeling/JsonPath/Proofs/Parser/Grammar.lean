import JsonPath.Proofs.Number.Spelling
import JsonPath.Query.Parser
import Mathlib.Data.List.Forall2

/-!
# The grammar of queries

The grammar says which token sequences are queries and which tree each of them has, in layers: a
disjunction is made of conjunctions, these of comparisons and unary expressions, and so on down to
names, numbers and strings. It knows nothing of streams, levels of precedence or lookahead. The
static rules stand as side conditions at the productions that they restrict.

All nonterminals are derived by one family, indexed by the nonterminal, so that a fact about all
derivations is one induction.
-/

namespace JsonPath

/-- The nonterminals, each with the kind of tree that it derives. -/
inductive Nonterminal where
  | query
  | segments
  | segment
  | shorthand
  | bracketed
  | selectors
  | selector
  | disjunction
  | conjunction
  | basic
  | unary
  | comparable
  | literal
  | path
  | call
  | arguments
  | argument
deriving DecidableEq, Repr

@[reducible]
def Nonterminal.Tree : Nonterminal → Type
  | query => Query
  | segments => List Segment
  | segment => Segment
  | shorthand => List Selector
  | bracketed => List Selector
  | selectors => List Selector
  | selector => Selector
  | arguments => List Expr
  | _ => Expr

def Expr.IsLiteral (e : Expr) : Prop := ∃ token literal, e = .literal token literal

namespace Grammar

open JsonPath.Parser (comparison? hasIdleZero hasLeadingZero)

/-- The token writes an integer that can be an index or a bound of a slice. -/
structure Index (dialect : Dialect) (token : Token) (i : Int) : Prop where
  kind : token.kind = .integer
  plain : hasIdleZero token.text.toList = false
  spelled : ∃ n : Numeral, n.Spells token.text.toList ∧ n.isInteger ∧
    n.whole.length ≤ longestInteger ∧ n.integerValue = i
  least : dialect.leastIndex ≤ i
  greatest : i ≤ dialect.greatestIndex

/-- A bound of a slice, which may be left out. -/
inductive Bound (dialect : Dialect) : List Token → Option Int → Prop
  | absent : Bound dialect [] none
  | present {token : Token} {i : Int} : Index dialect token i → Bound dialect [token] (some i)

/-- The step of a slice with its colon. Both may be left out, or the step alone. -/
inductive Stride (dialect : Dialect) : List Token → Option Int → Prop
  | absent : Stride dialect [] none
  | present {colon : Token} {ts : List Token} {step? : Option Int} : colon.kind = .colon →
      Bound dialect ts step? → Stride dialect (colon :: ts) step?

/-- The literal that a token writes. -/
inductive Writes : Token → Literal → Prop
  | string {token : Token} {s : Text} : token.kind = .singleQuoted ∨ token.kind = .doubleQuoted →
      token.literalText = .ok s → Writes token (.string s)
  | integer {token : Token} {n : Numeral} : token.kind = .integer →
      hasLeadingZero token.text.toList = false → n.Spells token.text.toList → n.isInteger →
      n.whole.length ≤ longestInteger → Writes token (.number (.integer n.integerValue))
  | decimal {token : Token} {n : Numeral} : token.kind = .decimal →
      hasLeadingZero token.text.toList = false → n.Spells token.text.toList →
      Writes token (.number (.double n.decimal.toDouble))
  | true {token : Token} : token.kind = .trueWord → Writes token (.boolean Bool.true)
  | false {token : Token} : token.kind = .falseWord → Writes token (.boolean Bool.false)
  | null {token : Token} : token.kind = .nullWord → Writes token .null

/-- Calls of functions that return a value are no tests; their results have to be compared. -/
def IsTest (signatures : Signatures) (e : Expr) : Prop :=
  e.resultType? signatures ≠ some .value

/-- The function is declared, with as many parameters as there are arguments, each of which fits
its own. -/
def Declared (signatures : Signatures) (name : Text) (given : List Expr) : Prop :=
  ∃ signature, signatures name = some signature ∧
    List.Forall₂ (fun argument parameter => argument.fits signatures parameter = true) given
      signature.parameters

/-- The token sequence is derived from the nonterminal, with the tree. -/
inductive Derives (dialect : Dialect) : (n : Nonterminal) → List Token → n.Tree → Prop
  | query {root : Token} {ts : List Token} {segs : List Segment} :
      root.kind = .root → Derives dialect .segments ts segs →
      Derives dialect .query (root :: ts) segs
  | noSegments : Derives dialect .segments [] []
  | moreSegments {ts us : List Token} {seg : Segment} {segs : List Segment} :
      Derives dialect .segment ts seg → Derives dialect .segments us segs →
      Derives dialect .segments (ts ++ us) (seg :: segs)
  | child {dot : Token} {ts : List Token} {sels : List Selector} :
      dot.kind = .dot → Derives dialect .shorthand ts sels →
      Derives dialect .segment (dot :: ts) (.child dot sels)
  | descendant {dots : Token} {ts : List Token} {sels : List Selector} :
      dots.kind = .doubleDot → Derives dialect .shorthand ts sels →
      Derives dialect .segment (dots :: ts) (.descendant dots sels)
  | childBracketed {opening : Token} {ts : List Token} {sels : List Selector} :
      Derives dialect .bracketed (opening :: ts) sels →
      Derives dialect .segment (opening :: ts) (.child opening sels)
  | descendantBracketed {dots : Token} {ts : List Token} {sels : List Selector} :
      dots.kind = .doubleDot → Derives dialect .bracketed ts sels →
      Derives dialect .segment (dots :: ts) (.descendant dots sels)
  | member {token : Token} : token.kind = .name →
      Derives dialect .shorthand [token] [.name token token.text]
  | anyMember {token : Token} : token.kind = .wildcard →
      Derives dialect .shorthand [token] [.wildcard token]
  | bracketed {opening closing : Token} {ts : List Token} {sels : List Selector} :
      opening.kind = .openSquare → Derives dialect .selectors ts sels →
      closing.kind = .closeSquare →
      Derives dialect .bracketed (opening :: (ts ++ [closing])) sels
  | lastSelector {ts : List Token} {sel : Selector} :
      Derives dialect .selector ts sel → Derives dialect .selectors ts [sel]
  | moreSelectors {ts us : List Token} {comma : Token} {sel : Selector} {sels : List Selector} :
      Derives dialect .selector ts sel → comma.kind = .comma →
      Derives dialect .selectors us sels →
      Derives dialect .selectors (ts ++ comma :: us) (sel :: sels)
  | name {token : Token} {name : Text} :
      token.kind = .singleQuoted ∨ token.kind = .doubleQuoted → token.literalText = .ok name →
      Derives dialect .selector [token] (.name token name)
  | wildcard {token : Token} : token.kind = .wildcard →
      Derives dialect .selector [token] (.wildcard token)
  | index {token : Token} {i : Int} : Index dialect token i →
      Derives dialect .selector [token] (.index token i)
  | slice {ts us vs : List Token} {colon : Token} {start? stop? step? : Option Int} :
      Bound dialect ts start? → colon.kind = .colon → Bound dialect us stop? →
      Stride dialect vs step? →
      Derives dialect .selector (ts ++ colon :: (us ++ vs))
        (.slice (ts.headD colon) start? stop? step?)
  | filter {mark : Token} {ts : List Token} {e : Expr} :
      mark.kind = .filter → Derives dialect .disjunction ts e → IsTest dialect.signatures e →
      Derives dialect .selector (mark :: ts) (.filter mark e)
  | oneConjunction {ts : List Token} {e : Expr} :
      Derives dialect .conjunction ts e → Derives dialect .disjunction ts e
  | disjunction {ts us : List Token} {or : Token} {left right : Expr} :
      Derives dialect .disjunction ts left → or.kind = .disjunction →
      Derives dialect .conjunction us right → IsTest dialect.signatures left →
      IsTest dialect.signatures right →
      Derives dialect .disjunction (ts ++ or :: us) (.disjunction or left right)
  | oneBasic {ts : List Token} {e : Expr} :
      Derives dialect .basic ts e → Derives dialect .conjunction ts e
  | conjunction {ts us : List Token} {and : Token} {left right : Expr} :
      Derives dialect .conjunction ts left → and.kind = .conjunction →
      Derives dialect .basic us right → IsTest dialect.signatures left →
      IsTest dialect.signatures right →
      Derives dialect .conjunction (ts ++ and :: us) (.conjunction and left right)
  | oneUnary {ts : List Token} {e : Expr} :
      Derives dialect .unary ts e → Derives dialect .basic ts e
  | comparison {ts us : List Token} {operator : Token} {comparison : Comparison}
      {left right : Expr} :
      Derives dialect .comparable ts left → comparison? operator.kind = some comparison →
      Derives dialect .comparable us right →
      Derives dialect .basic (ts ++ operator :: us) (.comparison operator left comparison right)
  | negation {not : Token} {ts : List Token} {e : Expr} :
      not.kind = .negation → Derives dialect .unary ts e → IsTest dialect.signatures e →
      Derives dialect .unary (not :: ts) (.negation not e)
  | group {opening closing : Token} {ts : List Token} {e : Expr} :
      opening.kind = .openParen → Derives dialect .disjunction ts e →
      IsTest dialect.signatures e → closing.kind = .closeParen →
      Derives dialect .unary (opening :: (ts ++ [closing])) e
  | unaryPath {ts : List Token} {e : Expr} :
      Derives dialect .path ts e → Derives dialect .unary ts e
  | unaryCall {ts : List Token} {e : Expr} :
      Derives dialect .call ts e → Derives dialect .unary ts e
  | comparableLiteral {ts : List Token} {e : Expr} :
      Derives dialect .literal ts e → Derives dialect .comparable ts e
  | comparablePath {ts : List Token} {e : Expr} :
      Derives dialect .path ts e → e.isSingularQuery = true → Derives dialect .comparable ts e
  | comparableCall {ts : List Token} {e : Expr} :
      Derives dialect .call ts e → e.resultType? dialect.signatures = some .value →
      Derives dialect .comparable ts e
  | literal {token : Token} {literal : Literal} : Writes token literal →
      Derives dialect .literal [token] (.literal token literal)
  | absolute {root : Token} {ts : List Token} {segs : List Segment} :
      root.kind = .root → Derives dialect .segments ts segs →
      Derives dialect .path (root :: ts) (.absolute root segs)
  | relative {current : Token} {ts : List Token} {segs : List Segment} :
      current.kind = .current → Derives dialect .segments ts segs →
      Derives dialect .path (current :: ts) (.relative current segs)
  | emptyCall {function opening closing : Token} :
      function.kind = .function → opening.kind = .openParen → closing.kind = .closeParen →
      Declared dialect.signatures function.text [] →
      Derives dialect .call [function, opening, closing] (.call function function.text [])
  | call {function opening closing : Token} {ts : List Token} {given : List Expr} :
      function.kind = .function → opening.kind = .openParen →
      Derives dialect .arguments ts given → closing.kind = .closeParen →
      Declared dialect.signatures function.text given →
      Derives dialect .call (function :: opening :: (ts ++ [closing]))
        (.call function function.text given)
  | lastArgument {ts : List Token} {e : Expr} :
      Derives dialect .argument ts e → Derives dialect .arguments ts [e]
  | moreArguments {ts us : List Token} {comma : Token} {e : Expr} {given : List Expr} :
      Derives dialect .argument ts e → comma.kind = .comma →
      Derives dialect .arguments us given →
      Derives dialect .arguments (ts ++ comma :: us) (e :: given)
  | literalArgument {ts : List Token} {e : Expr} :
      Derives dialect .literal ts e → Derives dialect .argument ts e
  | logicalArgument {ts : List Token} {e : Expr} :
      Derives dialect .disjunction ts e → Derives dialect .argument ts e

end Grammar

end JsonPath
