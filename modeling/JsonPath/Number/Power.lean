/-!
Powers of two and of ten, the bases of stored and of written numbers.
-/

namespace JsonPath

def twoTo (exponent : Nat) : Nat := Nat.pow 2 exponent

def tenTo (exponent : Nat) : Nat := Nat.pow 10 exponent

end JsonPath
