import JsonPath.Text.Position
import JsonPath.Text.Quoted

/-!
Tokens of query texts. A token knows its query and where in it it stands, but two tokens of one kind
and text are the same wherever they stand.
-/

namespace JsonPath

inductive TokenKind where
  | endOfQuery
  | error
  | root
  | current
  | name
  | dot
  | doubleDot
  | wildcard
  | openSquare
  | closeSquare
  | comma
  | colon
  | filter
  | openParen
  | closeParen
  | integer
  | decimal
  | doubleQuoted
  | singleQuoted
  | trueWord
  | falseWord
  | nullWord
  | function
  | conjunction
  | disjunction
  | negation
  | equals
  | notEquals
  | lessThan
  | lessOrEqual
  | greaterThan
  | greaterOrEqual
deriving DecidableEq, Repr

def TokenKind.label : TokenKind → Text
  | endOfQuery => "eoi"
  | error => "error"
  | root => "root"
  | current => "current"
  | name => "name"
  | dot => "dot"
  | doubleDot => "double_dot"
  | wildcard => "wild"
  | openSquare => "open_square"
  | closeSquare => "close_square"
  | comma => "comma"
  | colon => "colon"
  | filter => "filter"
  | openParen => "open_paren"
  | closeParen => "close_paren"
  | integer => "int"
  | decimal => "float"
  | doubleQuoted => "double_quote_string"
  | singleQuoted => "single_quote_string"
  | trueWord => "true"
  | falseWord => "false"
  | nullWord => "null"
  | function => "function"
  | conjunction => "and_"
  | disjunction => "or_"
  | negation => "not_"
  | equals => "equals"
  | notEquals => "not_eq"
  | lessThan => "less_than"
  | lessOrEqual => "less_than_eq"
  | greaterThan => "greater_than"
  | greaterOrEqual => "greater_than_eq"

def TokenKind.all : List TokenKind := [endOfQuery, error, root, current, name, dot, doubleDot,
  wildcard, openSquare, closeSquare, comma, colon, filter, openParen, closeParen, integer, decimal,
  doubleQuoted, singleQuoted, trueWord, falseWord, nullWord, function, conjunction, disjunction,
  negation, equals, notEquals, lessThan, lessOrEqual, greaterThan, greaterOrEqual]

def TokenKind.ofLabel? (label : Text) : Option TokenKind := all.find? (·.label == label)

/-- A token: its text, without the quotes of a string literal, the offsets where it starts and where
the text after it starts, and the query that these are offsets in. -/
structure Token where
  kind : TokenKind
  text : Text
  start : Nat
  stop : Nat
  query : Text
deriving DecidableEq, Repr

namespace Token

def same (a b : Token) : Bool := a.kind == b.kind && a.text == b.text

def position (token : Token) : Position := .ofOffset token.query.toList token.start

def diagnostic (token : Token) : Text :=
  "Token(" ++ token.kind.label ++ ", " ++ Text.quoted token.text ++ ", " ++
    Text.ofNat token.start ++ ")"

end Token

end JsonPath
