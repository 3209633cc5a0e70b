import JsonPath.Number.Numeral
import JsonPath.Text.Blank
import JsonPath.Text.Position
import JsonPath.Value

/-!
Reading JSON texts. Beyond the standard, `NaN` and the infinities are numbers, and a repeated member
name keeps its first place with the last value. A fault is found at one place of the text, which is
kept as the count of characters from there to the end until the whole text is at hand.
-/

namespace JsonPath

inductive JsonFault where
  | expectedValue
  | expectedComma
  | expectedColon
  | expectedName
  | unclosedString
  | controlCharacter
  | badEscape
  | badUnicodeEscape
  | extraData
  | byteOrderMark
deriving DecidableEq, Repr

def JsonFault.message : JsonFault → Text
  | expectedValue => "Expecting value"
  | expectedComma => "Expecting ',' delimiter"
  | expectedColon => "Expecting ':' delimiter"
  | expectedName => "Expecting property name enclosed in double quotes"
  | unclosedString => "Unterminated string starting at"
  | controlCharacter => "Invalid control character at"
  | badEscape => "Invalid \\escape"
  | badUnicodeEscape => "Invalid \\uXXXX escape"
  | extraData => "Extra data"
  | byteOrderMark => "Unexpected UTF-8 BOM (decode using utf-8-sig)"

inductive DocumentError where
  | malformed (fault : JsonFault) (offset : Nat)
  | numeral (fault : NumeralFault)
deriving DecidableEq, Repr

def DocumentError.message (text : Text) : DocumentError → Text
  | malformed fault offset =>
    let place := Position.ofOffset text.toList offset
    fault.message ++ ": line " ++ Text.ofNat place.line ++ " column " ++ Text.ofNat place.column ++
      " (char " ++ Text.ofNat offset ++ ")"
  | numeral fault => fault.message

namespace Json

/-- A fault in a text, with the number of characters left at its place. -/
inductive Failure where
  | malformed (fault : JsonFault) (left : Nat)
  | numeral (fault : NumeralFault)

/-- What was read, and the text after it, which is shorter than the bound. -/
structure Reading (bound : Nat) (α : Type) where
  item : α
  rest : List CodePoint
  shorter : rest.length < bound

def Reading.prepend {n m : Nat} (c : CodePoint) (r : Reading n (List CodePoint)) (h : n ≤ m) :
    Reading m (List CodePoint) :=
  ⟨c :: r.item, r.rest, Nat.lt_of_lt_of_le r.shorter h⟩

def skipBlanks (cs : List CodePoint) : List CodePoint := cs.dropWhile Text.isBlank

theorem length_skipBlanks_le (cs : List CodePoint) : (skipBlanks cs).length ≤ cs.length :=
  (List.dropWhile_sublist Text.isBlank).length_le

def unescape? : CodePoint → Option CodePoint
  | '"' => some '"'
  | '\\' => some '\\'
  | '/' => some '/'
  | c => Text.ofShortEscape? c

def unit? : (cs : List CodePoint) →
    Option (Nat × {rest : List CodePoint // rest.length + 4 = cs.length})
  | a :: b :: c :: d :: rest =>
    if rest.isEmpty then none
    else (Text.hexNumber? [a, b, c, d]).map fun unit => (unit, ⟨rest, rfl⟩)
  | _ => none

theorem length_le_of_unit? {digits rest : List CodePoint} (h : rest.length + 4 = digits.length) :
    rest.length ≤ digits.length := by
  omega

/-- The rest of a string literal after its opening quote. `start` characters were left at that
quote. A surrogate that has no partner stands for itself. -/
def stringBody (start : Nat) (cs : List CodePoint) :
    Except Failure (Reading cs.length (List CodePoint)) :=
  match cs with
  | [] => .error (.malformed .unclosedString start)
  | '"' :: rest => .ok ⟨[], rest, Nat.lt_succ_self _⟩
  | '\\' :: [] => .error (.malformed .unclosedString start)
  | '\\' :: 'u' :: digits =>
    match unit? digits with
    | none => .error (.malformed .badUnicodeEscape (digits.length + 1))
    | some (unit, ⟨rest, hunit⟩) =>
      have hrest := length_le_of_unit? hunit
      match pair? unit rest with
      | .error left => .error (.malformed .badUnicodeEscape left)
      | .ok (some (char, ⟨after, hpair⟩)) => do
        have hafter := Nat.le_trans (Nat.le_of_lt hpair) hrest
        let r ← stringBody start after
        return r.prepend char (Nat.le_add_right_of_le (k := 2) hafter)
      | .ok none => do
        let r ← stringBody start rest
        return r.prepend (CodePoint.ofNat unit) (Nat.le_add_right_of_le (k := 2) hrest)
  | '\\' :: c :: rest =>
    match unescape? c with
    | none => .error (.malformed .badEscape (rest.length + 2))
    | some char => do
      let r ← stringBody start rest
      return r.prepend char (Nat.le_add_right _ 2)
  | c :: rest =>
    if c < ' ' then .error (.malformed .controlCharacter (rest.length + 1))
    else do
      let r ← stringBody start rest
      return r.prepend c (Nat.le_succ _)
termination_by cs.length
decreasing_by
  · exact Nat.lt_add_right 1 (Nat.lt_succ_of_le hafter)
  · exact Nat.lt_add_right 1 (Nat.lt_succ_of_le hrest)
  · exact Nat.lt_add_right 1 (Nat.lt_succ_self _)
  · exact Nat.lt_succ_self _
where
  pair? (high : Nat) (cs : List CodePoint) :
      Except Nat (Option (CodePoint × {rest : List CodePoint // rest.length < cs.length})) :=
    match cs with
    | '\\' :: 'u' :: digits =>
      if Text.isHighSurrogate high ∧ 4 < digits.length then
        match unit? digits with
        | none => .error (digits.length + 1)
        | some (low, ⟨rest, h⟩) =>
          if Text.isLowSurrogate low then
            .ok (some (CodePoint.ofNat (Text.joinSurrogates high low),
              ⟨rest, Nat.lt_add_right 1 (Nat.lt_succ_of_le (length_le_of_unit? h))⟩))
          else .ok none
      else .ok none
    | _ => .ok none

/-- The whole part of a JSON number: a zero stands alone. -/
def wholePart : List CodePoint → List CodePoint × List CodePoint
  | '0' :: rest => (['0'], rest)
  | cs => Numeral.spanDigits CodePoint.isDigit cs

theorem wholePart_append (cs : List CodePoint) : (wholePart cs).1 ++ (wholePart cs).2 = cs := by
  unfold wholePart
  split
  · rfl
  · exact Numeral.spanDigits_append _ _

def number (cs : List CodePoint) : Except Failure (Reading cs.length Number) :=
  match h : Numeral.scan? CodePoint.isDigit wholePart cs with
  | none => .error (.malformed .expectedValue cs.length)
  | some (numeral, rest) =>
    match numeral.number with
    | .error fault => .error (.numeral fault)
    | .ok n => .ok ⟨n, rest, Numeral.length_of_scan? wholePart_append h⟩

mutual

def value (cs : List CodePoint) : Except Failure (Reading cs.length Value) :=
  match cs with
  | '"' :: rest => do
    let r ← stringBody (rest.length + 1) rest
    return ⟨.string (Text.ofList r.item), r.rest, Nat.lt_succ_of_lt r.shorter⟩
  | '[' :: rest =>
    have := length_skipBlanks_le rest
    match h : skipBlanks rest with
    | ']' :: after =>
      .ok ⟨.array [], after, by simp only [h, List.length_cons] at this ⊢; omega⟩
    | _ => do
      let r ← items (skipBlanks rest)
      return ⟨.array r.item, r.rest, by have := r.shorter; simp only [List.length_cons]; omega⟩
  | '\x7b' :: rest =>
    have := length_skipBlanks_le rest
    match h : skipBlanks rest with
    | '\x7d' :: after =>
      .ok ⟨.object [], after, by simp only [h, List.length_cons] at this ⊢; omega⟩
    | _ => do
      let r ← members (skipBlanks rest)
      return ⟨.ofMembers r.item, r.rest, by
        have := r.shorter; simp only [List.length_cons]; omega⟩
  | 'n' :: 'u' :: 'l' :: 'l' :: rest =>
    .ok ⟨.null, rest, by simp only [List.length_cons]; omega⟩
  | 't' :: 'r' :: 'u' :: 'e' :: rest =>
    .ok ⟨.boolean true, rest, by simp only [List.length_cons]; omega⟩
  | 'f' :: 'a' :: 'l' :: 's' :: 'e' :: rest =>
    .ok ⟨.boolean false, rest, by simp only [List.length_cons]; omega⟩
  | 'N' :: 'a' :: 'N' :: rest =>
    .ok ⟨.number (.double .nan), rest, by simp only [List.length_cons]; omega⟩
  | 'I' :: 'n' :: 'f' :: 'i' :: 'n' :: 'i' :: 't' :: 'y' :: rest =>
    .ok ⟨.number (.double (.infinite false)), rest, by simp only [List.length_cons]; omega⟩
  | '-' :: 'I' :: 'n' :: 'f' :: 'i' :: 'n' :: 'i' :: 't' :: 'y' :: rest =>
    .ok ⟨.number (.double (.infinite true)), rest, by simp only [List.length_cons]; omega⟩
  | cs => do
    let r ← number cs
    return ⟨.number r.item, r.rest, r.shorter⟩
termination_by (cs.length, 0)
decreasing_by all_goals (apply Prod.Lex.left; simp only [List.length_cons]; omega)

def items (cs : List CodePoint) : Except Failure (Reading cs.length (List Value)) := do
  let first ← value cs
  have := first.shorter
  have := length_skipBlanks_le first.rest
  match h : skipBlanks first.rest with
  | ']' :: after =>
    return ⟨[first.item], after, by simp only [h, List.length_cons] at this; omega⟩
  | ',' :: after =>
    have := length_skipBlanks_le after
    let more ← items (skipBlanks after)
    have := more.shorter
    return ⟨first.item :: more.item, more.rest, by
      simp only [h, List.length_cons] at *; omega⟩
  | other => throw (.malformed .expectedComma other.length)
termination_by (cs.length, 1)
decreasing_by
  · exact Prod.Lex.right _ (by decide)
  · apply Prod.Lex.left
    simp only [h, List.length_cons] at *
    omega

def members (cs : List CodePoint) : Except Failure (Reading cs.length (List (Text × Value))) :=
  match cs with
  | '"' :: rest => do
    let name ← stringBody (rest.length + 1) rest
    have := name.shorter
    have := length_skipBlanks_le name.rest
    match h : skipBlanks name.rest with
    | ':' :: afterColon =>
      have := length_skipBlanks_le afterColon
      let first ← value (skipBlanks afterColon)
      have := first.shorter
      have := length_skipBlanks_le first.rest
      let member := (Text.ofList name.item, first.item)
      match h' : skipBlanks first.rest with
      | '\x7d' :: after =>
        return ⟨[member], after, by simp only [h, h', List.length_cons] at *; omega⟩
      | ',' :: after =>
        have := length_skipBlanks_le after
        let more ← members (skipBlanks after)
        have := more.shorter
        return ⟨member :: more.item, more.rest, by
          simp only [h, h', List.length_cons] at *; omega⟩
      | other => throw (.malformed .expectedComma other.length)
    | other => throw (.malformed .expectedColon other.length)
  | _ => .error (.malformed .expectedName cs.length)
termination_by (cs.length, 1)
decreasing_by
  all_goals
    apply Prod.Lex.left
    simp only [h, List.length_cons] at *
    try simp only [h', List.length_cons] at *
    omega

end

def document (cs : List CodePoint) : Except Failure Value := do
  if cs.head? = some '\ufeff' then throw (.malformed .byteOrderMark cs.length)
  let r ← value (skipBlanks cs)
  match skipBlanks r.rest with
  | [] => return r.item
  | rest => throw (.malformed .extraData rest.length)

end Json

def Value.ofJson (text : Text) : Except DocumentError Value :=
  match Json.document text.toList with
  | .ok value => .ok value
  | .error (.malformed fault left) => .error (.malformed fault (text.length - left))
  | .error (.numeral fault) => .error (.numeral fault)

end JsonPath
