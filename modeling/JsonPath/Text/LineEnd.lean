import JsonPath.Text

/-!
The ends of lines in files. A line feed, a carriage return, and the two together each end a line; a
text that is read from a file has line feeds only.
-/

namespace JsonPath.Text

/-- The text with a line feed for each end of a line. -/
def unifyLineEnds : List CodePoint → List CodePoint
  | [] => []
  | '\r' :: '\n' :: rest => '\n' :: unifyLineEnds rest
  | '\r' :: rest => '\n' :: unifyLineEnds rest
  | c :: rest => c :: unifyLineEnds rest

end JsonPath.Text
