import JsonPath.Query
import JsonPath.Value.Printer

/-!
The canonical text of a query. Names stand in brackets between single quotes, literals are written
as JSON, logical operators are enclosed in parentheses, and a slice shows its step.
-/

namespace JsonPath

def Literal.text (literal : Literal) : Text := literal.value.json

mutual

def Expr.text : Expr → Text
  | .literal _ literal => literal.text
  | .negation _ operand => "!" ++ operand.text
  | .conjunction _ left right => "(" ++ left.text ++ " && " ++ right.text ++ ")"
  | .disjunction _ left right => "(" ++ left.text ++ " || " ++ right.text ++ ")"
  | .comparison _ left operator right =>
    left.text ++ " " ++ operator.symbol ++ " " ++ right.text
  | .relative _ segments => "@" ++ segmentsText segments
  | .absolute _ segments => "$" ++ segmentsText segments
  | .call _ name arguments => name ++ "(" ++ Text.intercalate ", " (argumentTexts arguments) ++ ")"

def argumentTexts : List Expr → List Text
  | [] => []
  | argument :: rest => argument.text :: argumentTexts rest

def Selector.text : Selector → Text
  | .name _ name => Text.normalizedName name
  | .index _ index => Text.ofInt index
  | .wildcard _ => "*"
  | .slice _ start? stop? step? =>
    (start?.map Text.ofInt).getD "" ++ ":" ++ (stop?.map Text.ofInt).getD "" ++ ":" ++
      Text.ofInt (step?.getD 1)
  | .filter _ expression => "?" ++ expression.text

def selectorTexts : List Selector → List Text
  | [] => []
  | selector :: rest => selector.text :: selectorTexts rest

def Segment.text : Segment → Text
  | .child _ selectors => "[" ++ Text.intercalate ", " (selectorTexts selectors) ++ "]"
  | .descendant _ selectors => "..[" ++ Text.intercalate ", " (selectorTexts selectors) ++ "]"

def segmentsText : List Segment → Text
  | [] => ""
  | segment :: rest => segment.text ++ segmentsText rest

end

/-- The canonical text of a query. -/
def Query.text (query : Query) : Text := "$" ++ segmentsText query

def Query.diagnostic (query : Query) : Text := "JSONPath(" ++ Text.quoted query.text ++ ")"

end JsonPath
