import JsonPath.Text

/-!
I-Regexp patterns in the notation of the regular expressions of this library. An I-Regexp has no
anchors, and its dot stands for any character but a line feed and a carriage return. Nothing else
differs between the two, and nothing at all inside a class or behind a backslash.
-/

namespace JsonPath.Regex

def dotClass : List CodePoint := ['[', '^', '\\', 'n', '\\', 'r', ']']

mutual

def outsideClass : List CodePoint → List CodePoint
  | [] => []
  | ['\\'] => ['\\']
  | '\\' :: c :: rest => '\\' :: c :: outsideClass rest
  | '[' :: rest => '[' :: insideClass rest
  | '.' :: rest => dotClass ++ outsideClass rest
  | '^' :: rest => '\\' :: '^' :: outsideClass rest
  | '$' :: rest => '\\' :: '$' :: outsideClass rest
  | c :: rest => c :: outsideClass rest

def insideClass : List CodePoint → List CodePoint
  | [] => []
  | ['\\'] => ['\\']
  | '\\' :: c :: rest => '\\' :: c :: insideClass rest
  | ']' :: rest => ']' :: outsideClass rest
  | c :: rest => c :: insideClass rest

end

/-- The pattern that means what the I-Regexp means. -/
def ofIregexp (pattern : Text) : Text := Text.ofList (outsideClass pattern.toList)

end JsonPath.Regex
