import JsonPath.Text

/-!
Blanks: the four characters that can stand between the tokens of a document or of a query.
-/

namespace JsonPath.Text

def isBlank (c : CodePoint) : Bool := c = ' ' ∨ c = '\t' ∨ c = '\n' ∨ c = '\r'

end JsonPath.Text
