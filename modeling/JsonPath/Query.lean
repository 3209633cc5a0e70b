import JsonPath.Token
import JsonPath.Value

/-!
Compiled queries: segments of selectors, of which a filter holds an expression, in which queries may
occur again. Each part keeps the token at which it was found.
-/

namespace JsonPath

inductive Literal where
  | null
  | boolean (b : Bool)
  | number (n : Number)
  | string (s : Text)
deriving DecidableEq

def Literal.value : Literal → Value
  | null => .null
  | boolean b => .boolean b
  | number n => .number n
  | string s => .string s

mutual

/-- A filter expression. A relative query starts at the current node and an absolute one at the
root. -/
inductive Expr where
  | literal (token : Token) (literal : Literal)
  | negation (token : Token) (operand : Expr)
  | conjunction (token : Token) (left right : Expr)
  | disjunction (token : Token) (left right : Expr)
  | comparison (token : Token) (left : Expr) (operator : Comparison) (right : Expr)
  | relative (token : Token) (segments : List Segment)
  | absolute (token : Token) (segments : List Segment)
  | call (token : Token) (name : Text) (arguments : List Expr)

inductive Selector where
  | name (token : Token) (name : Text)
  | index (token : Token) (index : Int)
  | wildcard (token : Token)
  | slice (token : Token) (start? stop? step? : Option Int)
  | filter (token : Token) (expression : Expr)

/-- Selectors that are applied to the given nodes, or to all nodes at and below them. -/
inductive Segment where
  | child (token : Token) (selectors : List Selector)
  | descendant (token : Token) (selectors : List Selector)

end

/-- A query: the segments are applied in turn, from the root node on. -/
abbrev Query := List Segment

instance : Inhabited Expr := ⟨.literal ⟨.endOfQuery, "", 0, 0, ""⟩ .null⟩

def Expr.token : Expr → Token
  | literal token _ => token
  | negation token _ => token
  | conjunction token _ _ => token
  | disjunction token _ _ => token
  | comparison token _ _ _ => token
  | relative token _ => token
  | absolute token _ => token
  | call token _ _ => token

def Selector.token : Selector → Token
  | name token _ => token
  | index token _ => token
  | wildcard token => token
  | slice token _ _ _ => token
  | filter token _ => token

def Segment.token : Segment → Token
  | child token _ => token
  | descendant token _ => token

def Segment.selectors : Segment → List Selector
  | child _ selectors => selectors
  | descendant _ selectors => selectors

def Selector.isSingular : Selector → Bool
  | name _ _ => true
  | index _ _ => true
  | _ => false

def Segment.isSingular : Segment → Bool
  | child _ [selector] => selector.isSingular
  | _ => false

/-- Whether the query selects one node at most, whatever the document. -/
def Query.isSingular (query : Query) : Bool := query.all Segment.isSingular

end JsonPath
