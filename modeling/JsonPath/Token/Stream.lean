import JsonPath.QueryError

/-!
Token sequences with one token of lookahead. A sequence is closed by an end token, which is read as
often as it is asked for; end tokens may stand before it as well.
-/

namespace JsonPath

structure Stream where
  ahead : List Token
  final : Token
  final_kind : final.kind = .endOfQuery

namespace Stream

/-- The stream of a token list whose last token is an end token. -/
def ofTokens? (tokens : List Token) : Option Stream :=
  match tokens.getLast? with
  | some final => if h : final.kind = .endOfQuery then some ⟨tokens.dropLast, final, h⟩ else none
  | none => none

theorem ofTokens?_append {tokens : List Token} {final : Token} (h : final.kind = .endOfQuery) :
    ofTokens? (tokens ++ [final]) = some ⟨tokens, final, h⟩ := by
  simp [ofTokens?, h]

/-- The number of tokens before the last end token. -/
def size (s : Stream) : Nat := s.ahead.length

def peek (s : Stream) : Token := s.ahead.headD s.final

def advance (s : Stream) : Stream := { s with ahead := s.ahead.tail }

theorem size_advance_lt {s : Stream} (h : s.peek.kind ≠ .endOfQuery) : s.advance.size < s.size := by
  obtain ⟨ahead, final, hfinal⟩ := s
  cases ahead with
  | nil => exact absurd hfinal h
  | cons _ _ => exact Nat.lt_succ_self _

def mismatch (s : Stream) (kind : TokenKind) : QueryError :=
  let found? := if s.peek.kind = .endOfQuery then none else some s.peek.text
  ⟨.expectedKind kind found?, some s.peek⟩

def expect (s : Stream) (kind : TokenKind) : Except QueryError Unit :=
  if s.peek.kind = kind then .ok () else .error (s.mismatch kind)

def expectNot (s : Stream) (kind : TokenKind) (fault : QueryFault) : Except QueryError Unit :=
  if s.peek.kind = kind then .error ⟨fault, some s.peek⟩ else .ok ()

theorem expect_eq_ok_iff {s : Stream} {kind : TokenKind} :
    s.expect kind = .ok () ↔ s.peek.kind = kind := by
  unfold expect
  split <;> simp_all

theorem expectNot_eq_ok_iff {s : Stream} {kind : TokenKind} {fault : QueryFault} :
    s.expectNot kind fault = .ok () ↔ s.peek.kind ≠ kind := by
  unfold expectNot
  split <;> simp_all

def diagnostic (s : Stream) : Text := "<TokenStream at " ++ s.peek.diagnostic ++ ">"

end Stream

end JsonPath
