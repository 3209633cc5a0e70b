import JsonPath.Unicode.Ranges

/-!
White space: the separators of category Zs and the characters whose bidirectional class is a
white space, a block separator or a segment separator.
-/

namespace JsonPath.Unicode

def spaceRanges : Ranges := [
  (0x9, 0xD), (0x1C, 0x20), (0x85, 0x85), (0xA0, 0xA0), (0x1680, 0x1680), (0x2000, 0x200A),
  (0x2028, 0x2029), (0x202F, 0x202F), (0x205F, 0x205F), (0x3000, 0x3000)]

def isSpace (c : CodePoint) : Bool := spaceRanges.covers c.toNat

/-- Whether the character has the property White_Space, which the four information separators
lack. -/
def isWhiteSpace (c : CodePoint) : Bool := isSpace c && !(0x1C ≤ c.toNat && c.toNat ≤ 0x1F)

end JsonPath.Unicode
