import JsonPath.Text

/-!
Short escapes: the letters that stand, behind a backslash, for control characters.
-/

namespace JsonPath.Text

/-- The letter of a control character, for those that have one. -/
def shortEscape? : CodePoint → Option CodePoint
  | '\x08' => some 'b'
  | '\x0c' => some 'f'
  | '\n' => some 'n'
  | '\r' => some 'r'
  | '\t' => some 't'
  | _ => none

def ofShortEscape? : CodePoint → Option CodePoint
  | 'b' => some '\x08'
  | 'f' => some '\x0c'
  | 'n' => some '\n'
  | 'r' => some '\r'
  | 't' => some '\t'
  | _ => none

end JsonPath.Text
