import JsonPath.Number.Numeral
import JsonPath.Token

/-!
What can be wrong with a query. A fault is a cause; an error is a fault with the token at which it
was found. The wording of all faults is here, and nowhere else.
-/

namespace JsonPath

/-- The three types of expressions: values, truth values and node lists. -/
inductive ExprType where
  | value
  | logical
  | nodes
deriving DecidableEq, Repr

def ExprType.label : ExprType → Text
  | value => "ValueType"
  | logical => "LogicalType"
  | nodes => "NodesType"

inductive QueryFault where
  | emptyQuery
  | leadingBlank
  | trailingBlank
  | unexpectedCharacter (c : CodePoint)
  | unclosedString
  | expectedNameAfter (dots : Text)
  | expectedKind (kind : TokenKind) (found? : Option Text)
  | refused (message : Text)
  | trailingComma
  | unexpected (text : Text)
  | unexpectedInBrackets (text : Text)
  | unexpectedInFilter (text : Text)
  | endInBrackets
  | endAfterSelector
  | endInFilter
  | emptyBrackets
  | expectedSelectorAfter (text : Text)
  | badIndex (text : Text)
  | indexOutOfRange (text : Text)
  | badNumber (text : Text)
  | badEscape (escape : Text)
  | badStringCharacter (c : CodePoint)
  | badUnicodeEscape
  | loneLowSurrogate
  | loneHighSurrogate
  | groupNotComparable
  | literalNotCompared
  | resultNotCompared (function : Text)
  | queryNotSingular
  | resultNotComparable (function : Text)
  | notComparable
  | undefinedFunction (function : Text)
  | wrongArgumentCount (function : Text) (expected given : Nat)
  | wrongArgumentType (function : Text) (place : Nat) (expected : ExprType)
deriving DecidableEq, Repr

inductive FaultClass where
  | syntaxFault
  | typeFault
  | nameFault
  | indexFault
deriving DecidableEq, Repr

namespace QueryFault

def faultClass : QueryFault → FaultClass
  | resultNotCompared _ => .typeFault
  | resultNotComparable _ => .typeFault
  | wrongArgumentCount _ _ _ => .typeFault
  | wrongArgumentType _ _ _ => .typeFault
  | undefinedFunction _ => .nameFault
  | indexOutOfRange _ => .indexFault
  | _ => .syntaxFault

def message : QueryFault → Text
  | emptyQuery => "empty query"
  | leadingBlank => "unexpected leading whitespace"
  | trailingBlank => "unexpected trailing whitespace"
  | unexpectedCharacter c => "unexpected " ++ Text.quoted (Text.singleton c)
  | unclosedString => "unclosed string literal"
  | expectedNameAfter dots => "expected a name or '*' after " ++ Text.quoted dots
  | expectedKind kind (some text) => "expected " ++ kind.label ++ ", found " ++ Text.quoted text
  | expectedKind kind none => "expected " ++ kind.label ++ ", found end of query"
  | refused message => message
  | trailingComma => "unexpected trailing comma"
  | unexpected text => "unexpected " ++ Text.quoted text
  | unexpectedInBrackets text => "unexpected " ++ Text.quoted text ++ " in bracketed selection"
  | unexpectedInFilter text => "unexpected " ++ Text.quoted text ++ " in filter expression"
  | endInBrackets => "unexpected end of query"
  | endAfterSelector => "unexpected end of selector list"
  | endInFilter => "unexpected end of filter expression"
  | emptyBrackets => "empty bracketed segment"
  | expectedSelectorAfter text => "expected a selector after " ++ Text.quoted text
  | badIndex text => "invalid index " ++ Text.quoted text
  | indexOutOfRange text => "index " ++ text ++ " is out of range"
  | badNumber text => "invalid number " ++ Text.quoted text
  | badEscape escape => "invalid escape sequence '\\" ++ escape ++ "'"
  | badStringCharacter c =>
    "invalid character " ++ Text.quoted (Text.singleton c) ++ " in string literal"
  | badUnicodeEscape => "invalid \\u escape"
  | loneLowSurrogate => "unexpected low surrogate"
  | loneHighSurrogate => "unpaired high surrogate"
  | groupNotComparable => "parenthesized expression is not comparable"
  | literalNotCompared => "filter expression literals must be compared"
  | resultNotCompared function => "result of " ++ function ++ "() must be compared"
  | queryNotSingular => "non-singular query is not comparable"
  | resultNotComparable function => "result of " ++ function ++ "() is not comparable"
  | notComparable => "expected a literal, singular query or function call"
  | undefinedFunction function => "function " ++ Text.quoted function ++ " is not defined"
  | wrongArgumentCount function expected given =>
    function ++ "() takes " ++ Text.ofNat expected ++ " argument(s), " ++ Text.ofNat given ++
      " given"
  | wrongArgumentType function place expected =>
    function ++ "() argument " ++ Text.ofNat place ++ " must be of " ++ expected.label

end QueryFault

/-- A fault and the token at which it was found; an empty query has no token. -/
structure QueryError where
  fault : QueryFault
  token? : Option Token
deriving DecidableEq, Repr

def QueryError.message (error : QueryError) : Text :=
  match error.token? with
  | none => error.fault.message
  | some token =>
    let place := token.position
    error.fault.message ++ ", line " ++ Text.ofNat place.line ++ ", column " ++
      Text.ofNat place.column

/-- Why a query cannot be compiled: it is at fault, or an integer in it cannot be read, or its
tokens do not end with an end token. -/
inductive CompileError where
  | query (error : QueryError)
  | numeral (fault : NumeralFault)
  | openEnded
deriving DecidableEq, Repr

def CompileError.message : CompileError → Text
  | .query error => error.message
  | .numeral fault => fault.message
  | .openEnded => "token sequence must end with an eoi token"

end JsonPath
