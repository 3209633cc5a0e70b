import JsonPath.QueryError

/-!
The texts that string literals of queries stand for. A literal is written between single or double
quotes; within it a backslash starts an escape, and control characters are refused.
-/

namespace JsonPath

namespace StringLiteral

def unescape? (quote : CodePoint) : CodePoint → Option CodePoint
  | '/' => some '/'
  | '\\' => some '\\'
  | c => if c = quote then some quote else Text.ofShortEscape? c

def unit? : List CodePoint → Option (Nat × List CodePoint)
  | a :: b :: c :: d :: rest => (Text.hexNumber? [a, b, c, d]).map (·, rest)
  | _ => none

theorem length_of_unit? {cs rest : List CodePoint} {n : Nat} (h : unit? cs = some (n, rest)) :
    rest.length + 4 = cs.length := by
  unfold unit? at h
  split at h
  · obtain ⟨_, -, heq⟩ := Option.map_eq_some_iff.1 h
    cases heq
    rfl
  · contradiction

/-- The character of an escape with hexadecimal digits, from the digits on, and the text after it.
A high surrogate takes the escape of a low one with it. -/
def unicodeEscape (cs : List CodePoint) : Except QueryFault (CodePoint × List CodePoint) :=
  match unit? cs with
  | none => .error .badUnicodeEscape
  | some (unit, rest) =>
    if Text.isLowSurrogate unit then .error .loneLowSurrogate
    else if Text.isHighSurrogate unit then
      match rest with
      | '\\' :: 'u' :: digits =>
        match unit? digits with
        | some (low, after) =>
          if Text.isLowSurrogate low then
            .ok (CodePoint.ofNat (Text.joinSurrogates unit low), after)
          else .error .loneHighSurrogate
        | none => .error .loneHighSurrogate
      | _ => .error .loneHighSurrogate
    else .ok (CodePoint.ofNat unit, rest)

theorem length_of_unicodeEscape {cs rest : List CodePoint} {c : CodePoint}
    (h : unicodeEscape cs = .ok (c, rest)) : rest.length < cs.length := by
  unfold unicodeEscape at h
  split at h
  · cases h
  next unit after hunit =>
    have := length_of_unit? hunit
    split at h
    · cases h
    · split at h
      · split at h
        · split at h
          next hlow =>
            have := length_of_unit? hlow
            split at h
            · simp only [Except.ok.injEq, Prod.mk.injEq] at h
              rw [← h.2]
              simp only [List.length_cons] at *
              omega
            · cases h
          · cases h
        · cases h
      · simp only [Except.ok.injEq, Prod.mk.injEq] at h
        rw [← h.2]
        omega

/-- The text that a literal between the given quotes stands for. -/
def decode (quote : CodePoint) (cs : List CodePoint) : Except QueryFault (List CodePoint) :=
  match cs with
  | [] => .ok []
  | '\\' :: [] => .error (.badEscape "")
  | '\\' :: 'u' :: digits =>
    match h : unicodeEscape digits with
    | .error fault => .error fault
    | .ok (c, rest) => do
      have := length_of_unicodeEscape h
      return c :: (← decode quote rest)
  | '\\' :: c :: rest =>
    match unescape? quote c with
    | some char => do return char :: (← decode quote rest)
    | none => .error (.badEscape (Text.singleton c))
  | c :: rest =>
    if c < ' ' then .error (.badStringCharacter c)
    else do return c :: (← decode quote rest)
termination_by cs.length
decreasing_by all_goals simp only [List.length_cons]; omega

end StringLiteral

def Token.literalText (token : Token) : Except QueryError Text :=
  let quote : CodePoint := if token.kind = .singleQuoted then '\'' else '"'
  match StringLiteral.decode quote token.text.toList with
  | .ok cs => .ok (Text.ofList cs)
  | .error fault => .error ⟨fault, some token⟩

end JsonPath
