import JsonPath.Number.Numeral
import JsonPath.Query.StringLiteral
import JsonPath.Query.Typing
import JsonPath.Token.Lexer
import JsonPath.Token.Stream

/-!
From tokens to queries, by recursive descent; the operators of filter expressions are parsed by
their precedence. Each part returns the stream after it with the proof that it is shorter, so the
parser ends on every token sequence.
-/

namespace JsonPath

structure Dialect where
  leastIndex : Int
  greatestIndex : Int
  signatures : Signatures

namespace Parser

/-- What was parsed, and the tokens after it, of which there are fewer than the bound. -/
structure Parsed (bound : Nat) (α : Type) where
  item : α
  rest : Stream
  shorter : rest.size < bound

def fail {α : Type} (fault : QueryFault) (token : Token) : Except CompileError α :=
  .error (.query ⟨fault, some token⟩)

def require {α : Type} : Except QueryError α → Except CompileError α
  | .ok a => .ok a
  | .error error => .error (.query error)

def readNumeral {α : Type} : Except NumeralFault α → Except CompileError α
  | .ok a => .ok a
  | .error fault => .error (.numeral fault)

/-- How tightly operators bind. -/
inductive Level where
  | lowest
  | disjunction
  | conjunction
  | relation
  | unary
deriving DecidableEq, Repr

def Level.rank : Level → Nat
  | lowest => 1
  | disjunction => 2
  | conjunction => 3
  | relation => 4
  | unary => 5

def comparison? : TokenKind → Option Comparison
  | .equals => some .equal
  | .notEquals => some .notEqual
  | .lessThan => some .less
  | .lessOrEqual => some .lessOrEqual
  | .greaterThan => some .greater
  | .greaterOrEqual => some .greaterOrEqual
  | _ => none

def level? (kind : TokenKind) : Option Level :=
  match kind with
  | .disjunction => some .disjunction
  | .conjunction => some .conjunction
  | _ => if (comparison? kind).isSome then some .relation else none

def binds (kind : TokenKind) (level : Level) : Bool :=
  (level? kind).any fun operator => level.rank < operator.rank

theorem ne_endOfQuery_of_binds {kind : TokenKind} {level : Level} (h : binds kind level) :
    kind ≠ .endOfQuery := by
  rintro rfl
  exact absurd h (by simp [binds, level?, comparison?])

/-- Whether the text of an integer starts with a zero that it could do without. -/
def hasIdleZero (cs : List CodePoint) : Bool :=
  1 < cs.length && ([('0' : CodePoint)].isPrefixOf cs || [('-' : CodePoint), '0'].isPrefixOf cs)

def hasLeadingZero (cs : List CodePoint) : Bool :=
  match (Numeral.splitMinus cs).2 with
  | '0' :: c :: _ => Unicode.isDigit c
  | _ => false

def index (dialect : Dialect) (token : Token) : Except CompileError Int := do
  if hasIdleZero token.text.toList then fail (.badIndex token.text) token
  let n ← readNumeral (Numeral.readInteger token.text)
  if dialect.leastIndex ≤ n ∧ n ≤ dialect.greatestIndex then return n
  else fail (.indexOutOfRange token.text) token

def number (token : Token) : Except CompileError Number := do
  if hasLeadingZero token.text.toList then fail (.badNumber token.text) token
  if token.kind = .integer then return .integer (← readNumeral (Numeral.readInteger token.text))
  else return .double (← readNumeral (Numeral.readDouble token.text))

def optionalIndex (dialect : Dialect) (s : Stream) :
    Except CompileError (Parsed (s.size + 1) (Option Int)) :=
  if h : s.peek.kind = .integer then do
    let n ← index dialect s.peek
    return ⟨some n, s.advance, Nat.lt_succ_of_lt (Stream.size_advance_lt (by simp [h]))⟩
  else .ok ⟨none, s, Nat.lt_succ_self _⟩

def sliceRest (dialect : Dialect) (token : Token) (start? : Option Int) (s : Stream) :
    Except CompileError (Parsed (s.size + 1) Selector) := do
  let stop ← optionalIndex dialect s
  have := stop.shorter
  if h : stop.rest.peek.kind = .colon then
    have := Stream.size_advance_lt (s := stop.rest) (by simp [h])
    let step ← optionalIndex dialect stop.rest.advance
    have := step.shorter
    return ⟨.slice token start? stop.item step.item, step.rest, by omega⟩
  else return ⟨.slice token start? stop.item none, stop.rest, this⟩

mutual

def segments (dialect : Dialect) (s : Stream) :
    Except CompileError (Parsed (s.size + 1) (List Segment)) :=
  match h : s.peek.kind with
  | .doubleDot => do
    have := Stream.size_advance_lt (s := s) (by simp [h])
    let first ← dotted dialect s.peek s.advance
    have := first.shorter
    let more ← segments dialect first.rest
    have := more.shorter
    return ⟨.descendant s.peek first.item :: more.item, more.rest, by omega⟩
  | .dot => do
    have := Stream.size_advance_lt (s := s) (by simp [h])
    let first ← dotted dialect s.peek s.advance
    have := first.shorter
    let more ← segments dialect first.rest
    have := more.shorter
    return ⟨.child s.peek first.item :: more.item, more.rest, by omega⟩
  | .openSquare => do
    let first ← bracketed dialect s h
    have := first.shorter
    let more ← segments dialect first.rest
    have := more.shorter
    return ⟨.child s.peek first.item :: more.item, more.rest, by omega⟩
  | _ => .ok ⟨[], s, Nat.lt_succ_self _⟩
termination_by (s.size, 2)
decreasing_by
  all_goals first
    | (apply Prod.Lex.left; omega)
    | exact Prod.Lex.right _ (by decide)

def dotted (dialect : Dialect) (dots : Token) (s : Stream) :
    Except CompileError (Parsed s.size (List Selector)) :=
  match h : s.peek.kind with
  | .name => .ok ⟨[.name s.peek s.peek.text], s.advance, Stream.size_advance_lt (by simp [h])⟩
  | .wildcard => .ok ⟨[.wildcard s.peek], s.advance, Stream.size_advance_lt (by simp [h])⟩
  | .openSquare => bracketed dialect s h
  | _ => fail (.expectedSelectorAfter dots.text) dots
termination_by (s.size, 1)
decreasing_by exact Prod.Lex.right _ (by decide)

def bracketed (dialect : Dialect) (s : Stream) (h : s.peek.kind = .openSquare) :
    Except CompileError (Parsed s.size (List Selector)) := do
  have := Stream.size_advance_lt (s := s) (by simp [h])
  if s.advance.peek.kind = .closeSquare then fail .emptyBrackets s.peek
  let r ← selectors dialect s.advance
  have := r.shorter
  return ⟨r.item, r.rest, by omega⟩
termination_by (s.size, 0)
decreasing_by apply Prod.Lex.left; assumption

def selectors (dialect : Dialect) (s : Stream) :
    Except CompileError (Parsed s.size (List Selector)) := do
  let first ← selector dialect s
  have := first.shorter
  match h : first.rest.peek.kind with
  | .endOfQuery => fail .endAfterSelector first.rest.peek
  | .closeSquare =>
    have := Stream.size_advance_lt (s := first.rest) (by simp [h])
    return ⟨[first.item], first.rest.advance, by omega⟩
  | kind =>
    if hcomma : kind = .comma then
      have := Stream.size_advance_lt (s := first.rest) (by simp [h, hcomma])
      require (first.rest.advance.expectNot .closeSquare .trailingComma)
      let more ← selectors dialect first.rest.advance
      have := more.shorter
      return ⟨first.item :: more.item, more.rest, by omega⟩
    else .error (.query (first.rest.mismatch .comma))
termination_by (s.size, 1)
decreasing_by
  · exact Prod.Lex.right _ (by decide)
  · apply Prod.Lex.left
    omega

def selector (dialect : Dialect) (s : Stream) : Except CompileError (Parsed s.size Selector) :=
  match h : s.peek.kind with
  | .integer => do
    have := Stream.size_advance_lt (s := s) (by simp [h])
    let n ← index dialect s.peek
    if hcolon : s.advance.peek.kind = .colon then
      have := Stream.size_advance_lt (s := s.advance) (by simp [hcolon])
      let r ← sliceRest dialect s.peek (some n) s.advance.advance
      have := r.shorter
      return ⟨r.item, r.rest, by omega⟩
    else return ⟨.index s.peek n, s.advance, this⟩
  | .singleQuoted => do
    let name ← require s.peek.literalText
    return ⟨.name s.peek name, s.advance, Stream.size_advance_lt (by simp [h])⟩
  | .doubleQuoted => do
    let name ← require s.peek.literalText
    return ⟨.name s.peek name, s.advance, Stream.size_advance_lt (by simp [h])⟩
  | .colon => do
    have := Stream.size_advance_lt (s := s) (by simp [h])
    let r ← sliceRest dialect s.peek none s.advance
    have := r.shorter
    return ⟨r.item, r.rest, by omega⟩
  | .wildcard => .ok ⟨.wildcard s.peek, s.advance, Stream.size_advance_lt (by simp [h])⟩
  | .filter => do
    have := Stream.size_advance_lt (s := s) (by simp [h])
    let r ← expression dialect .lowest s.advance
    have := r.shorter
    require (r.item.checkTest dialect.signatures)
    return ⟨.filter s.peek r.item, r.rest, by omega⟩
  | .endOfQuery => fail .endInBrackets s.peek
  | _ => fail (.unexpectedInBrackets s.peek.text) s.peek
termination_by (s.size, 0)
decreasing_by apply Prod.Lex.left; assumption

/-- An expression of operators that bind more tightly than a level. A parenthesised operand is no
operand of a comparison. -/
def expression (dialect : Dialect) (level : Level) (s : Stream) :
    Except CompileError (Parsed s.size Expr) := do
  let grouped := s.peek.kind == .openParen
  let first ← operand dialect s
  have := first.shorter
  let r ← operations dialect level grouped first.item first.rest
  have := r.shorter
  return ⟨r.item, r.rest, by omega⟩
termination_by (s.size, 1)
decreasing_by
  · exact Prod.Lex.right _ (by decide)
  · apply Prod.Lex.left
    assumption

/-- The operators after a left operand, as far as they bind more tightly than the level. -/
def operations (dialect : Dialect) (level : Level) (grouped : Bool) (left : Expr) (s : Stream) :
    Except CompileError (Parsed (s.size + 1) Expr) :=
  if h : binds s.peek.kind level then do
    have := Stream.size_advance_lt (s := s) (ne_endOfQuery_of_binds h)
    if (comparison? s.peek.kind).isSome && grouped then fail .groupNotComparable s.peek
    let r ← operation dialect left s.peek s.advance
    have := r.shorter
    let more ← operations dialect level false r.item r.rest
    have := more.shorter
    return ⟨more.item, more.rest, by omega⟩
  else .ok ⟨left, s, Nat.lt_succ_self _⟩
termination_by (s.size, 0)
decreasing_by
  · apply Prod.Lex.left
    assumption
  · apply Prod.Lex.left
    omega

def operation (dialect : Dialect) (left : Expr) (operator : Token) (s : Stream) :
    Except CompileError (Parsed s.size Expr) := do
  match comparison? operator.kind with
  | some comparison =>
    if s.peek.kind = .openParen then fail .groupNotComparable s.peek
    let right ← expression dialect .relation s
    require (left.checkComparable dialect.signatures)
    require (right.item.checkComparable dialect.signatures)
    return ⟨.comparison operator left comparison right.item, right.rest, right.shorter⟩
  | none =>
    let conjunction := operator.kind = .conjunction
    let right ← expression dialect (if conjunction then .conjunction else .disjunction) s
    require (left.checkTest dialect.signatures)
    require (right.item.checkTest dialect.signatures)
    let item :=
      if conjunction then .conjunction operator left right.item
      else .disjunction operator left right.item
    return ⟨item, right.rest, right.shorter⟩
termination_by (s.size, 2)
decreasing_by all_goals exact Prod.Lex.right _ (by decide)

def operand (dialect : Dialect) (s : Stream) : Except CompileError (Parsed s.size Expr) :=
  match h : s.peek.kind with
  | .singleQuoted => do
    let text ← require s.peek.literalText
    return ⟨.literal s.peek (.string text), s.advance, Stream.size_advance_lt (by simp [h])⟩
  | .doubleQuoted => do
    let text ← require s.peek.literalText
    return ⟨.literal s.peek (.string text), s.advance, Stream.size_advance_lt (by simp [h])⟩
  | .integer => do
    let n ← number s.peek
    return ⟨.literal s.peek (.number n), s.advance, Stream.size_advance_lt (by simp [h])⟩
  | .decimal => do
    let n ← number s.peek
    return ⟨.literal s.peek (.number n), s.advance, Stream.size_advance_lt (by simp [h])⟩
  | .trueWord =>
    .ok ⟨.literal s.peek (.boolean true), s.advance, Stream.size_advance_lt (by simp [h])⟩
  | .falseWord =>
    .ok ⟨.literal s.peek (.boolean false), s.advance, Stream.size_advance_lt (by simp [h])⟩
  | .nullWord => .ok ⟨.literal s.peek .null, s.advance, Stream.size_advance_lt (by simp [h])⟩
  | .negation => do
    have := Stream.size_advance_lt (s := s) (by simp [h])
    let r ← expression dialect .unary s.advance
    have := r.shorter
    require (r.item.checkTest dialect.signatures)
    return ⟨.negation s.peek r.item, r.rest, by omega⟩
  | .openParen => do
    have := Stream.size_advance_lt (s := s) (by simp [h])
    let r ← expression dialect .lowest s.advance
    have := r.shorter
    if hclose : r.rest.peek.kind = .closeParen then
      have := Stream.size_advance_lt (s := r.rest) (by simp [hclose])
      require (r.item.checkTest dialect.signatures)
      return ⟨r.item, r.rest.advance, by omega⟩
    else .error (.query (r.rest.mismatch .closeParen))
  | .root => do
    have := Stream.size_advance_lt (s := s) (by simp [h])
    let r ← segments dialect s.advance
    have := r.shorter
    return ⟨.absolute s.peek r.item, r.rest, by omega⟩
  | .current => do
    have := Stream.size_advance_lt (s := s) (by simp [h])
    let r ← segments dialect s.advance
    have := r.shorter
    return ⟨.relative s.peek r.item, r.rest, by omega⟩
  | .function => do
    have := Stream.size_advance_lt (s := s) (by simp [h])
    let r ← call dialect s.peek s.advance
    have := r.shorter
    return ⟨r.item, r.rest, by omega⟩
  | .endOfQuery => fail .endInFilter s.peek
  | _ => fail (.unexpectedInFilter s.peek.text) s.peek
termination_by (s.size, 0)
decreasing_by all_goals (apply Prod.Lex.left; assumption)

def call (dialect : Dialect) (function : Token) (s : Stream) :
    Except CompileError (Parsed s.size Expr) :=
  if h : s.peek.kind = .openParen then do
    have := Stream.size_advance_lt (s := s) (by simp [h])
    if hclose : s.advance.peek.kind = .closeParen then
      have := Stream.size_advance_lt (s := s.advance) (by simp [hclose])
      require (checkCall dialect.signatures function function.text [])
      return ⟨.call function function.text [], s.advance.advance, by omega⟩
    else
      let r ← arguments dialect s.advance
      have := r.shorter
      require (checkCall dialect.signatures function function.text r.item)
      return ⟨.call function function.text r.item, r.rest, by omega⟩
  else .error (.query (s.mismatch .openParen))
termination_by (s.size, 0)
decreasing_by apply Prod.Lex.left; assumption

def arguments (dialect : Dialect) (s : Stream) :
    Except CompileError (Parsed s.size (List Expr)) := do
  let first ← expression dialect .lowest s
  have := first.shorter
  if hclose : first.rest.peek.kind = .closeParen then
    have := Stream.size_advance_lt (s := first.rest) (by simp [hclose])
    return ⟨[first.item], first.rest.advance, by omega⟩
  else if hcomma : first.rest.peek.kind = .comma then
    have := Stream.size_advance_lt (s := first.rest) (by simp [hcomma])
    require (first.rest.advance.expectNot .closeParen .trailingComma)
    let more ← arguments dialect first.rest.advance
    have := more.shorter
    return ⟨first.item :: more.item, more.rest, by omega⟩
  else .error (.query (first.rest.mismatch .comma))
termination_by (s.size, 2)
decreasing_by
  · exact Prod.Lex.right _ (by decide)
  · apply Prod.Lex.left
    omega

end

/-- The query of a whole stream, up to the first end token. -/
def query (dialect : Dialect) (s : Stream) : Except CompileError Query := do
  require (s.expect .root)
  let r ← segments dialect s.advance
  if r.rest.peek.kind = .endOfQuery then return r.item
  else fail (.unexpected r.rest.peek.text) r.rest.peek

end Parser

def Query.ofTokens (dialect : Dialect) (tokens : List Token) : Except CompileError Query :=
  match Stream.ofTokens? tokens with
  | some stream => Parser.query dialect stream
  | none => .error .openEnded

def Query.ofText (dialect : Dialect) (text : Text) : Except CompileError Query :=
  match Token.ofQuery text with
  | .ok tokens => Query.ofTokens dialect tokens
  | .error error => .error (.query error)

end JsonPath
