import JsonPath.QueryError
import JsonPath.Text.Blank

/-!
From query texts to tokens. Each step splits a lexeme off the front of the text that is left, so the
lexemes and the blanks between them make up the text. A query neither starts nor ends with a blank,
and a member name or a wildcard follows its dots at once.
-/

namespace JsonPath

namespace Lexer

/-- A letter, an underscore, or any character beyond ASCII but for the surrogates. -/
def isNameFirst (c : CodePoint) : Bool :=
  c.isAlpha || c == '_' || (0x80 ≤ c.toNat && !c.isSurrogate)

def isNameChar (c : CodePoint) : Bool := isNameFirst c || c.isDigit

def isFunctionFirst (c : CodePoint) : Bool := c.isLower

def isFunctionChar (c : CodePoint) : Bool := c.isLower || c.isDigit || c == '_'

/-- The tokens of fixed text. Of two with a common beginning the longer stands first. -/
def symbols : List (Text × TokenKind) :=
  [(⟨['.', '.']⟩, .doubleDot), (⟨['.']⟩, .dot), (⟨['$']⟩, .root), (⟨['@']⟩, .current),
    (⟨['*']⟩, .wildcard), (⟨['[']⟩, .openSquare), (⟨[']']⟩, .closeSquare), (⟨[',']⟩, .comma),
    (⟨[':']⟩, .colon), (⟨['?']⟩, .filter), (⟨['(']⟩, .openParen), (⟨[')']⟩, .closeParen),
    (⟨['&', '&']⟩, .conjunction), (⟨['|', '|']⟩, .disjunction), (⟨['!', '=']⟩, .notEquals),
    (⟨['!']⟩, .negation), (⟨['=', '=']⟩, .equals), (⟨['<', '=']⟩, .lessOrEqual),
    (⟨['<']⟩, .lessThan), (⟨['>', '=']⟩, .greaterOrEqual), (⟨['>']⟩, .greaterThan)]

/-- The words that are literals where no name character follows. -/
def words : List (Text × TokenKind) :=
  [(⟨['t', 'r', 'u', 'e']⟩, .trueWord), (⟨['f', 'a', 'l', 's', 'e']⟩, .falseWord),
    (⟨['n', 'u', 'l', 'l']⟩, .nullWord)]

structure Lexeme where
  kind : TokenKind
  length : Nat
deriving DecidableEq, Repr

def symbol? (cs : List CodePoint) : Option Lexeme :=
  (symbols.find? fun entry => entry.1.toList.isPrefixOf cs).map fun entry =>
    ⟨entry.2, entry.1.length⟩

def number? (cs : List CodePoint) : Option Lexeme :=
  (Numeral.scan? Unicode.isDigit (Numeral.spanDigits Unicode.isDigit) cs).map
    fun (numeral, rest) =>
      ⟨if numeral.isInteger then .integer else .decimal, cs.length - rest.length⟩

/-- The number of characters to the closing quote, with it. A backslash takes the next character
along, whatever it is. -/
def closingQuote? (quote : CodePoint) : List CodePoint → Option Nat
  | [] => none
  | c :: rest =>
    if c = quote then some 1
    else if c = '\\' then
      match rest with
      | [] => none
      | _ :: more => (closingQuote? quote more).map (· + 2)
    else (closingQuote? quote rest).map (· + 1)

def quoteKind? : CodePoint → Option TokenKind
  | '\'' => some .singleQuoted
  | '"' => some .doubleQuoted
  | _ => none

def function? (cs : List CodePoint) : Option Lexeme :=
  match cs with
  | c :: rest =>
    let more := rest.takeWhile isFunctionChar
    if isFunctionFirst c && (rest.drop more.length).head? == some '(' then
      some ⟨.function, more.length + 1⟩
    else none
  | [] => none

def word? (cs : List CodePoint) : Option Lexeme :=
  (words.find? fun entry =>
    entry.1.toList.isPrefixOf cs && !(cs.drop entry.1.length).head?.any isNameChar).map
      fun entry => ⟨entry.2, entry.1.length⟩

def lexeme? (cs : List CodePoint) : Except QueryFault (Option Lexeme) :=
  match (symbol? cs).or (number? cs) with
  | some lexeme => .ok (some lexeme)
  | none =>
    match cs with
    | [] => .ok none
    | c :: rest =>
      match quoteKind? c with
      | some kind =>
        match closingQuote? c rest with
        | some length => .ok (some ⟨kind, length + 1⟩)
        | none => .error .unclosedString
      | none => .ok ((function? cs).or (word? cs))

/-- What follows dots at once: a member name or a wildcard. Two dots may stand before a bracket. -/
def shorthand? (dots : TokenKind) (cs : List CodePoint) : Except QueryFault (Option Lexeme) :=
  let refused := .error (.expectedNameAfter (if dots = .doubleDot then ".." else "."))
  match cs with
  | [] => refused
  | c :: rest =>
    if isNameFirst c then .ok (some ⟨.name, (rest.takeWhile isNameChar).length + 1⟩)
    else if c = '*' then .ok (some ⟨.wildcard, 1⟩)
    else if c = '[' ∧ dots = .doubleDot then .ok none
    else refused

def Lexeme.Within (lexeme : Lexeme) (cs : List CodePoint) : Prop :=
  0 < lexeme.length ∧ lexeme.length ≤ cs.length

theorem within_of_symbol? {cs : List CodePoint} {lexeme : Lexeme} (h : symbol? cs = some lexeme) :
    lexeme.Within cs := by
  obtain ⟨entry, hentry, rfl⟩ := Option.map_eq_some_iff.1 h
  have hpos : ∀ entry ∈ symbols, 0 < entry.1.length := by decide
  have hprefix : entry.1.toList <+: cs := by simpa using List.find?_some hentry
  exact ⟨hpos entry (List.mem_of_find?_eq_some hentry), Text.length_toList ▸ hprefix.length_le⟩

theorem within_of_word? {cs : List CodePoint} {lexeme : Lexeme} (h : word? cs = some lexeme) :
    lexeme.Within cs := by
  obtain ⟨entry, hentry, rfl⟩ := Option.map_eq_some_iff.1 h
  have hpos : ∀ entry ∈ words, 0 < entry.1.length := by decide
  have hprefix : entry.1.toList <+: cs := by
    have := List.find?_some hentry
    simp only [Bool.and_eq_true, List.isPrefixOf_iff_prefix] at this
    exact this.1
  exact ⟨hpos entry (List.mem_of_find?_eq_some hentry), Text.length_toList ▸ hprefix.length_le⟩

theorem within_of_number? {cs : List CodePoint} {lexeme : Lexeme} (h : number? cs = some lexeme) :
    lexeme.Within cs := by
  obtain ⟨⟨numeral, rest⟩, hscan, rfl⟩ := Option.map_eq_some_iff.1 h
  have := Numeral.length_of_scan? (Numeral.spanDigits_append Unicode.isDigit) hscan
  exact ⟨by simp only; omega, Nat.sub_le _ _⟩

theorem within_of_function? {cs : List CodePoint} {lexeme : Lexeme}
    (h : function? cs = some lexeme) :
    lexeme.Within cs := by
  unfold function? at h
  split at h
  next c rest =>
    simp only [Option.ite_none_right_eq_some, Option.some.injEq] at h
    obtain ⟨-, rfl⟩ := h
    exact ⟨Nat.succ_pos _, Nat.succ_le_succ (List.takeWhile_sublist _).length_le⟩
  · contradiction

theorem closingQuote?_le {quote : CodePoint} {cs : List CodePoint} {n : Nat}
    (h : closingQuote? quote cs = some n) : n ≤ cs.length := by
  fun_induction closingQuote? quote cs generalizing n with
  | case1 => contradiction
  | case2 => simp_all
  | case3 => contradiction
  | case4 _ _ more ih =>
    obtain ⟨m, hm, rfl⟩ := Option.map_eq_some_iff.1 h
    have := ih hm
    simp only [List.length_cons]
    omega
  | case5 c rest _ _ ih =>
    obtain ⟨m, hm, rfl⟩ := Option.map_eq_some_iff.1 h
    exact Nat.succ_le_succ (ih hm)

theorem within_of_lexeme? {cs : List CodePoint} {lexeme : Lexeme}
    (h : lexeme? cs = .ok (some lexeme)) : lexeme.Within cs := by
  unfold lexeme? at h
  split at h
  next found hfound =>
    cases h
    rcases Option.or_eq_some_iff.1 hfound with hsymbol | ⟨-, hnumber⟩
    · exact within_of_symbol? hsymbol
    · exact within_of_number? hnumber
  · split at h
    · cases h
    next c rest =>
      split at h
      · split at h
        next n hn =>
          cases h
          exact ⟨Nat.succ_pos _, Nat.succ_le_succ (closingQuote?_le hn)⟩
        · cases h
      · simp only [Except.ok.injEq] at h
        rcases Option.or_eq_some_iff.1 h with hfunction | ⟨-, hword⟩
        · exact within_of_function? hfunction
        · exact within_of_word? hword

theorem within_of_shorthand? {dots : TokenKind} {cs : List CodePoint} {lexeme : Lexeme}
    (h : shorthand? dots cs = .ok (some lexeme)) : lexeme.Within cs := by
  unfold shorthand? at h
  dsimp only at h
  split at h
  · cases h
  next c rest =>
    split at h
    · cases h
      exact ⟨Nat.succ_pos _, Nat.succ_le_succ (List.takeWhile_sublist _).length_le⟩
    · split at h
      · cases h
        exact ⟨Nat.one_pos, by simp⟩
      · split at h <;> cases h

def Lexeme.token (lexeme : Lexeme) (query : Text) (offset : Nat) (cs : List CodePoint) : Token :=
  let taken := cs.take lexeme.length
  let text :=
    if lexeme.kind = .singleQuoted ∨ lexeme.kind = .doubleQuoted then (taken.drop 1).dropLast
    else taken
  ⟨lexeme.kind, Text.ofList text, offset, offset + lexeme.length, query⟩

def faultAt (query : Text) (fault : QueryFault) (offset : Nat) (cs : List CodePoint) : QueryError :=
  ⟨fault, some ⟨.error, Text.ofList (cs.take 1), offset, offset + 1, query⟩⟩

/-- The tokens of a query's text from an offset on, and the end token. `dots?` is the kind of the
dots right before it, if there are any. -/
def tokensFrom (query : Text) (dots? : Option TokenKind) (offset : Nat) (cs : List CodePoint) :
    Except QueryError (List Token) :=
  match dots? with
  | some dots =>
    match h : shorthand? dots cs with
    | .error fault => .error (faultAt query fault offset cs)
    | .ok none => tokensFrom query none offset cs
    | .ok (some lexeme) => do
      have := within_of_shorthand? h
      let more ← tokensFrom query none (offset + lexeme.length) (cs.drop lexeme.length)
      return lexeme.token query offset cs :: more
  | none =>
    if cs.isEmpty then .ok [⟨.endOfQuery, "", offset, offset, query⟩]
    else
      let blanks := (cs.takeWhile Text.isBlank).length
      let rest := cs.drop blanks
      let start := offset + blanks
      match rest.head? with
      | none => .error (faultAt query .trailingBlank offset cs)
      | some c =>
        match h : lexeme? rest with
        | .error fault => .error (faultAt query fault start rest)
        | .ok none => .error (faultAt query (.unexpectedCharacter c) start rest)
        | .ok (some lexeme) => do
          have := within_of_lexeme? h
          let dots? :=
            if lexeme.kind = .dot ∨ lexeme.kind = .doubleDot then some lexeme.kind else none
          let more ← tokensFrom query dots? (start + lexeme.length) (rest.drop lexeme.length)
          return lexeme.token query start rest :: more
termination_by (cs.length, if dots?.isSome then 1 else 0)
decreasing_by
  · exact Prod.Lex.right _ (by simp)
  · apply Prod.Lex.left
    unfold Lexeme.Within at this
    simp only [List.length_drop]
    omega
  · apply Prod.Lex.left
    unfold Lexeme.Within at this
    simp only [rest, List.length_drop] at this ⊢
    omega

end Lexer

def Token.ofQuery (query : Text) : Except QueryError (List Token) :=
  let cs := query.toList
  match cs with
  | [] => .error ⟨.emptyQuery, none⟩
  | c :: _ =>
    if Text.isBlank c then .error (Lexer.faultAt query .leadingBlank 0 cs)
    else Lexer.tokensFrom query none 0 cs

end JsonPath
