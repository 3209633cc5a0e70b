import JsonPath.Proofs.Number.Spelling
import JsonPath.Proofs.Token.Literals

/-!
# What a text lexes to

The lexer takes the longest lexeme, so what a piece of text comes to depends on the text after it.
The pieces are therefore lexed with the rest in place, and two pieces that fit together come to the
tokens of the first and those of the second. Where a piece comes to nothing, so does the whole text.
-/

namespace JsonPath

/-- What a token is but for its place: its kind and its text. -/
abbrev Shape := TokenKind × Text

def Token.shape (token : Token) : Shape := (token.kind, token.text)

namespace Lexer

/-- Before the rest the text comes to tokens of these shapes. -/
def Lexes (cs : List CodePoint) (shapes : List Shape) (rest : List CodePoint) : Prop :=
  ∀ query offset, ∃ ts : List Token, ts.map Token.shape = shapes ∧
    tokensFrom query none offset (cs ++ rest) = (ts ++ ·) <$> tokensFrom query none
      (offset + cs.length) rest

/-- Before the rest the text comes to no tokens. -/
def Refused (cs rest : List CodePoint) : Prop :=
  ∀ query offset, ∃ error, tokensFrom query none offset (cs ++ rest) = .error error

/-- Before the rest the text comes to tokens of these shapes if it is readable, and else to none. -/
def LexesIf (readable : Bool) (cs : List CodePoint) (shapes : List Shape)
    (rest : List CodePoint) : Prop :=
  if readable then Lexes cs shapes rest else Refused cs rest

variable {a b cs rest : List CodePoint} {ss ts : List Shape} {query : Text} {offset : Nat}
  {lexeme : Lexeme} {kind : TokenKind}

theorem lexes_nil : Lexes [] [] rest := by
  intro query offset
  refine ⟨[], rfl, ?_⟩
  rw [List.nil_append, List.length_nil, Nat.add_zero]
  cases tokensFrom query none offset rest <;> rfl

theorem Lexes.append (h : Lexes a ss (b ++ rest)) (h' : Lexes b ts rest) :
    Lexes (a ++ b) (ss ++ ts) rest := by
  intro query offset
  obtain ⟨us, hus, heq⟩ := h query offset
  obtain ⟨vs, hvs, heq'⟩ := h' query (offset + a.length)
  refine ⟨us ++ vs, by rw [List.map_append, hus, hvs], ?_⟩
  rw [List.append_assoc, heq, heq', List.length_append, Nat.add_assoc]
  cases tokensFrom query none (offset + (a.length + b.length)) rest with
  | error => rfl
  | ok more => exact congrArg Except.ok (List.append_assoc us vs more).symm

theorem Lexes.refused (h : Lexes a ss (b ++ rest)) (h' : Refused b rest) :
    Refused (a ++ b) rest := by
  intro query offset
  obtain ⟨us, -, heq⟩ := h query offset
  obtain ⟨error, herror⟩ := h' query (offset + a.length)
  rw [List.append_assoc, heq, herror]
  exact ⟨error, rfl⟩

theorem Refused.append (h : Refused a (b ++ rest)) : Refused (a ++ b) rest := by
  intro query offset
  rw [List.append_assoc]
  exact h query offset

theorem LexesIf.append {readable readable' : Bool} (h : LexesIf readable a ss (b ++ rest))
    (h' : LexesIf readable' b ts rest) :
    LexesIf (readable && readable') (a ++ b) (ss ++ ts) rest := by
  cases readable with
  | false => exact Refused.append h
  | true =>
    cases readable' with
    | false => exact Lexes.refused h h'
    | true => exact Lexes.append h h'

theorem LexesIf.append_lexes {readable : Bool} (h : LexesIf readable a ss (b ++ rest))
    (h' : Lexes b ts rest) : LexesIf readable (a ++ b) (ss ++ ts) rest := by
  cases readable with
  | false => exact Refused.append h
  | true => exact Lexes.append h h'

theorem Lexes.append_lexesIf {readable : Bool} (h : Lexes a ss (b ++ rest))
    (h' : LexesIf readable b ts rest) : LexesIf readable (a ++ b) (ss ++ ts) rest := by
  cases readable with
  | false => exact Lexes.refused h h'
  | true => exact Lexes.append h h'

/-- Blanks are skipped, and what stands after them is a lexeme or a fault. -/
theorem tokensFrom_eq (query : Text) (offset : Nat) {blanks : List CodePoint}
    (hblanks : ∀ c ∈ blanks, Text.isBlank c = true) {c : CodePoint}
    (hc : Text.isBlank c = false) (more : List CodePoint) :
    tokensFrom query none offset (blanks ++ c :: more) =
      match lexeme? (c :: more) with
      | .error fault => .error (faultAt query fault (offset + blanks.length) (c :: more))
      | .ok none => .error (faultAt query (.unexpectedCharacter c) (offset + blanks.length)
        (c :: more))
      | .ok (some lexeme) =>
        (lexeme.token query (offset + blanks.length) (c :: more) :: ·) <$>
          tokensFrom query
            (if lexeme.kind = .dot ∨ lexeme.kind = .doubleDot then some lexeme.kind else none)
            (offset + blanks.length + lexeme.length) ((c :: more).drop lexeme.length) := by
  have htake : (blanks ++ c :: more).takeWhile Text.isBlank = blanks := by
    rw [List.takeWhile_append_of_pos hblanks, List.takeWhile_cons_of_neg (by simp [hc]),
      List.append_nil]
  have hempty : (blanks ++ c :: more).isEmpty = false := by simp
  rw [tokensFrom.eq_def]
  simp only [hempty, Bool.false_eq_true, if_false, htake, List.drop_left, List.head?_cons]
  split
  next heq => rw [htake, List.drop_left] at heq; rw [heq]
  next heq => rw [htake, List.drop_left] at heq; rw [heq]
  next heq =>
    rw [htake, List.drop_left] at heq
    rw [heq]
    simp only
    cases tokensFrom _ _ _ _ <;> rfl

theorem lexes_of_lexeme? (h : lexeme? (cs ++ rest) = .ok (some ⟨kind, cs.length⟩))
    (hblank : cs.head?.any Text.isBlank = false)
    (hkind : kind ∉ [TokenKind.dot, .doubleDot, .singleQuoted, .doubleQuoted]) :
    Lexes cs [(kind, Text.ofList cs)] rest := by
  intro query offset
  obtain ⟨c, cs, rfl⟩ := List.exists_cons_of_length_pos (within_of_lexeme? h).1
  have heq := tokensFrom_eq query offset (List.forall_mem_nil _) hblank (cs ++ rest)
  rw [List.cons_append] at h
  simp only [List.mem_cons, List.not_mem_nil, or_false, not_or] at hkind
  refine ⟨[Lexeme.token ⟨kind, (c :: cs).length⟩ query offset (c :: cs ++ rest)], ?_, ?_⟩
  · simp [Token.shape, Lexeme.token, hkind]
  · rw [List.nil_append, h] at heq
    simp only [hkind, or_self, if_false] at heq
    rw [List.cons_append, heq]
    simp [Functor.map]

theorem lexes_blank {c : CodePoint} {more : List CodePoint} (hc : Text.isBlank c = false) :
    Lexes [' '] [] (c :: more) := by
  intro query offset
  have hblank : Text.isBlank ' ' = true := rfl
  have heq := tokensFrom_eq query offset (List.forall_mem_singleton.2 hblank) hc more
  have heq' := tokensFrom_eq query (offset + 1) (List.forall_mem_nil _) hc more
  refine ⟨[], rfl, ?_⟩
  rw [List.nil_append, List.length_nil, Nat.add_zero] at heq'
  rw [heq, List.length_singleton, ← heq']
  cases tokensFrom query none (offset + 1) (c :: more) <;> rfl

/-- What can stand after a blank or after a `!`, whose lexeme it does not change. -/
def Starts (cs : List CodePoint) : Prop :=
  ∃ c more, cs = c :: more ∧ Text.isBlank c = false ∧ c ≠ '='

theorem Starts.append (h : Starts a) : Starts (a ++ b) := by
  obtain ⟨c, more, rfl, hc⟩ := h
  exact ⟨c, more ++ b, rfl, hc⟩

theorem LexesIf.blank {readable : Bool} (hcs : Starts cs) (h : LexesIf readable cs ss rest) :
    LexesIf readable (' ' :: cs) ss rest := by
  obtain ⟨c, more, rfl, hc, -⟩ := hcs
  exact Lexes.append_lexesIf (lexes_blank hc) h

/-! ### Lexemes by their kinds -/

theorem lexes_symbol {text : Text}
    (h : symbol? (text.toList ++ rest) = some ⟨kind, text.toList.length⟩)
    (hblank : text.toList.head?.any Text.isBlank = false)
    (hkind : kind ∉ [TokenKind.dot, .doubleDot, .singleQuoted, .doubleQuoted]) :
    Lexes text.toList [(kind, text)] rest := by
  have hlexes : Lexes text.toList [(kind, Text.ofList text.toList)] rest := by
    refine lexes_of_lexeme? ?_ hblank hkind
    unfold lexeme?
    rw [h]
    rfl
  rwa [Text.ofList_toList] at hlexes

theorem lexes_operator {text : Text}
    (h : symbol? (text.toList ++ (' ' : CodePoint) :: rest) = some ⟨kind, text.toList.length⟩)
    (hblank : text.toList.head?.any Text.isBlank = false)
    (hkind : kind ∉ [TokenKind.dot, .doubleDot, .singleQuoted, .doubleQuoted]) :
    Lexes (' ' :: text.toList) [(kind, text)] (' ' :: rest) := by
  have hlexes := lexes_symbol h hblank hkind
  obtain ⟨c, more, htext⟩ := List.exists_cons_of_length_pos (within_of_symbol? h).1
  rw [htext] at hlexes hblank ⊢
  exact Lexes.append (lexes_blank hblank) hlexes

/-- A negation before anything but a `=`. -/
theorem lexes_negation (hrest : Starts rest) :
    Lexes ("!" : Text).toList [(.negation, "!")] rest := by
  obtain ⟨c, more, rfl, -, hc⟩ := hrest
  have hsymbol : symbol? ('!' :: c :: more) = some ⟨.negation, 1⟩ := by
    simp [symbol?, symbols, Ne.symm hc]
  exact lexes_symbol hsymbol (by decide) (by decide)

theorem lexes_dots : Lexes ['.', '.'] [(.doubleDot, "..")] ('[' :: rest) := by
  intro query offset
  have hlexeme : lexeme? ('.' :: '.' :: '[' :: rest) = .ok (some ⟨.doubleDot, 2⟩) := rfl
  have hblank : Text.isBlank '.' = false := by decide
  have heq := tokensFrom_eq query offset (List.forall_mem_nil _) hblank ('.' :: '[' :: rest)
  have hnext (offset : Nat) : tokensFrom query (some .doubleDot) offset ('[' :: rest) =
      tokensFrom query none offset ('[' :: rest) := by
    rw [tokensFrom.eq_def]
    rfl
  rw [hlexeme] at heq
  refine ⟨[Lexeme.token ⟨.doubleDot, 2⟩ query offset ('.' :: '.' :: '[' :: rest)], rfl, ?_⟩
  refine heq.trans ?_
  simp [hnext]

/-- A character before which no symbol stops. -/
theorem symbol?_eq_none {p : CodePoint → Bool}
    (hp : ∀ entry ∈ symbols, entry.1.toList.head?.all (!p ·) = true) {c : CodePoint}
    (hc : p c = true)
    (more : List CodePoint) : symbol? (c :: more) = none := by
  unfold symbol?
  rw [Option.map_eq_none_iff, List.find?_eq_none]
  intro entry hentry hprefix
  have hhead := hp entry hentry
  obtain ⟨suffix, hsuffix⟩ := List.isPrefixOf_iff_prefix.1 hprefix
  have hne : ∀ entry ∈ symbols, entry.1.toList ≠ [] := by decide
  obtain ⟨d, ds, hds⟩ := List.exists_cons_of_ne_nil (hne entry hentry)
  rw [hds] at hhead hsuffix
  obtain rfl : d = c := (List.cons.inj hsuffix).1
  simp [hc] at hhead

/-- What can stand at the end of an operand. -/
def Stops (rest : List CodePoint) : Prop :=
  ∀ c ∈ rest.head?, c ∈ [(' ' : CodePoint), ',', ')', ']', ':']

theorem Stops.any_eq_false (h : Stops rest) {p : CodePoint → Bool}
    (hp : [(' ' : CodePoint), ',', ')', ']', ':'].any p = false) : rest.head?.any p = false := by
  cases rest with
  | nil => rfl
  | cons c rest => exact Bool.eq_false_iff.2 (List.any_eq_false.1 hp c (h c rfl))

theorem Stops.endsNumber (h : Stops rest) : Numeral.EndsNumber rest := by
  intro c hc
  have hany :
      rest.head?.any (fun c => Unicode.isDigit c || c == '.' || c == 'e' || c == 'E') = false :=
    h.any_eq_false (by decide)
  rw [Option.mem_def] at hc
  rw [hc] at hany
  simpa [and_assoc] using hany

theorem number?_of_spells {n : Numeral} (h : n.Spells cs) (hrest : Numeral.EndsNumber rest) :
    number? (cs ++ rest) =
      some ⟨if n.isInteger then .integer else .decimal, cs.length⟩ := by
  unfold number?
  rw [Numeral.scan?_of_spells h hrest]
  simp

theorem exists_head_of_spells {n : Numeral} (h : n.Spells cs) :
    ∃ c more, cs = c :: more ∧ (Unicode.isDigit c || c == '-') = true := by
  obtain ⟨hne, hdigits, fraction, exponent, -, -, rfl⟩ := h
  obtain ⟨c, whole, hwhole⟩ := List.exists_cons_of_ne_nil hne
  rw [hwhole] at hdigits ⊢
  cases n.negative with
  | true => exact ⟨'-', _, rfl, rfl⟩
  | false => exact ⟨c, _, rfl, by simp [hdigits c List.mem_cons_self]⟩

theorem not_isBlank_of_isDigit {c : CodePoint} (h : Unicode.isDigit c = true) :
    Text.isBlank c = false := by
  have hne (d : CodePoint) (hd : Unicode.isDigit d = false) : c ≠ d := Numeral.ne_of_isDigit h hd
  simp [Text.isBlank, hne ' ' (by decide), hne '\t' (by decide), hne '\n' (by decide),
    hne '\r' (by decide)]

theorem lexes_number {n : Numeral} (h : n.Spells cs) (hrest : Numeral.EndsNumber rest) :
    Lexes cs [(if n.isInteger then .integer else .decimal, Text.ofList cs)] rest := by
  obtain ⟨c, more, hcs, hc⟩ := exists_head_of_spells h
  have hsymbol : symbol? (cs ++ rest) = none := by
    rw [hcs]
    exact symbol?_eq_none (p := fun c => Unicode.isDigit c || c == '-') (by decide) hc _
  have hblank : cs.head?.any Text.isBlank = false := by
    rw [hcs]
    rcases Bool.or_eq_true_iff.1 hc with hdigit | hminus
    · exact not_isBlank_of_isDigit hdigit
    · rw [eq_of_beq hminus]
      rfl
  refine lexes_of_lexeme? ?_ hblank (by cases n.isInteger <;> simp)
  unfold lexeme?
  rw [hsymbol, number?_of_spells h hrest]
  rfl

theorem number?_eq_none {c : CodePoint} (hdigit : Unicode.isDigit c = false) (hminus : c ≠ '-')
    (more : List CodePoint) : number? (c :: more) = none := by
  have hsplit : Numeral.splitMinus (c :: more) = (false, c :: more) := by
    unfold Numeral.splitMinus
    split
    next heq => exact absurd (List.cons.inj heq).1 hminus
    · rfl
  unfold number? Numeral.scan?
  simp [hsplit, Numeral.spanDigits, hdigit]

theorem quoteKind?_eq_some_iff {quote : CodePoint} :
    quoteKind? quote = some kind ↔
      quote = '\'' ∧ kind = .singleQuoted ∨ quote = '"' ∧ kind = .doubleQuoted := by
  unfold quoteKind?
  split <;> simp_all [eq_comm]

section Quoted

variable {quote : CodePoint} {body : List CodePoint}

theorem lexeme?_quoted (hquote : quoteKind? quote = some kind)
    (hclosing : closingQuote? quote (body ++ quote :: rest) = some (body.length + 1)) :
    lexeme? (quote :: (body ++ quote :: rest)) = .ok (some ⟨kind, body.length + 2⟩) := by
  have hcases := quoteKind?_eq_some_iff.1 hquote
  have hsymbol : symbol? (quote :: (body ++ quote :: rest)) = none := by
    rcases hcases with ⟨rfl, -⟩ | ⟨rfl, -⟩ <;> rfl
  have hnumber : number? (quote :: (body ++ quote :: rest)) = none := by
    rcases hcases with ⟨rfl, -⟩ | ⟨rfl, -⟩ <;> exact number?_eq_none (by decide) (by decide) _
  unfold lexeme?
  simp only [hsymbol, hnumber, Option.or_none, hquote, hclosing]

/-- The token of a literal has the text between the quotes. -/
theorem token_quoted (hquote : quoteKind? quote = some kind) (body rest : List CodePoint)
    (query : Text) (offset : Nat) :
    Lexeme.token ⟨kind, body.length + 2⟩ query offset (quote :: (body ++ quote :: rest)) =
      ⟨kind, Text.ofList body, offset, offset + (body.length + 2), query⟩ := by
  have hkind : kind = .singleQuoted ∨ kind = .doubleQuoted := by
    rcases quoteKind?_eq_some_iff.1 hquote with ⟨-, h⟩ | ⟨-, h⟩
    · exact .inl h
    · exact .inr h
  simp [Lexeme.token, hkind, List.take_append, List.take_of_length_le]

theorem tokensFrom_quoted (hquote : quoteKind? quote = some kind)
    (hclosing : closingQuote? quote (body ++ quote :: rest) = some (body.length + 1))
    (query : Text) (offset : Nat) :
    tokensFrom query none offset (quote :: (body ++ quote :: rest)) =
      (⟨kind, Text.ofList body, offset, offset + (body.length + 2), query⟩ :: ·) <$>
        tokensFrom query none (offset + (body.length + 2)) rest := by
  have hcases := quoteKind?_eq_some_iff.1 hquote
  have hblank : Text.isBlank quote = false := by
    rcases hcases with ⟨rfl, -⟩ | ⟨rfl, -⟩ <;> rfl
  have hkind : kind ≠ .dot ∧ kind ≠ .doubleDot := by
    rcases hcases with ⟨-, rfl⟩ | ⟨-, rfl⟩ <;> simp
  have heq := tokensFrom_eq query offset (List.forall_mem_nil _) hblank (body ++ quote :: rest)
  rw [List.nil_append, lexeme?_quoted hquote hclosing] at heq
  simp only [hkind, or_self, if_false, List.length_nil, Nat.add_zero,
    token_quoted hquote] at heq
  rw [heq]
  simp

theorem lexes_quoted (hquote : quoteKind? quote = some kind)
    (hclosing : closingQuote? quote (body ++ quote :: rest) = some (body.length + 1)) :
    Lexes (quote :: (body ++ [quote])) [(kind, Text.ofList body)] rest := by
  intro query offset
  refine ⟨[⟨kind, Text.ofList body, offset, offset + (body.length + 2), query⟩], rfl, ?_⟩
  simpa using tokensFrom_quoted hquote hclosing query offset

end Quoted

/-! ### Words and names of functions -/

/-- What the lexer takes for the name of a function, if a parenthesis follows. -/
def IsFunctionName (cs : List CodePoint) : Prop :=
  ∃ c more, cs = c :: more ∧ isFunctionFirst c = true ∧ ∀ d ∈ more, isFunctionChar d = true

theorem ne_of_isLower {c d : CodePoint} (h : c.isLower = true) (hd : d.isLower = false) :
    c ≠ d := by
  rintro rfl
  rw [h] at hd
  cases hd

theorem not_isBlank_of_isLower {c : CodePoint} (h : c.isLower = true) : Text.isBlank c = false := by
  have hne (d : CodePoint) (hd : d.isLower = false) : c ≠ d := ne_of_isLower h hd
  simp [Text.isBlank, hne ' ' (by decide), hne '\t' (by decide), hne '\n' (by decide),
    hne '\r' (by decide)]

theorem not_isDigit_of_isLower {c : CodePoint} (h : c.isLower = true) :
    Unicode.isDigit c = false := by
  rw [Bool.eq_false_iff]
  intro hdigit
  have hbetween := Numeral.not_between_of_isDigit hdigit (by decide : Numeral.DigitFree 97 122)
  obtain ⟨hlow, hhigh⟩ := Bool.and_eq_true_iff.1 h
  have hlow : 97 ≤ c.toNat := of_decide_eq_true hlow
  have hhigh : c.toNat ≤ 122 := of_decide_eq_true hhigh
  omega

theorem lexeme?_of_isLower {c : CodePoint} (h : c.isLower = true) (more : List CodePoint) :
    lexeme? (c :: more) = .ok ((function? (c :: more)).or (word? (c :: more))) := by
  have hquote : quoteKind? c = none := by
    unfold quoteKind?
    split
    · exact absurd rfl (ne_of_isLower h (by decide))
    · exact absurd rfl (ne_of_isLower h (by decide))
    · rfl
  have hminus : c ≠ '-' := ne_of_isLower h (by decide)
  unfold lexeme?
  rw [symbol?_eq_none (by decide) h, number?_eq_none (not_isDigit_of_isLower h) hminus]
  simp only [Option.or_none, hquote]

theorem function?_of_isFunctionName (h : IsFunctionName cs) (rest : List CodePoint) :
    function? (cs ++ ('(' : CodePoint) :: rest) = some ⟨.function, cs.length⟩ := by
  obtain ⟨c, more, rfl, hfirst, hmore⟩ := h
  have htake : (more ++ ('(' : CodePoint) :: rest).takeWhile isFunctionChar = more := by
    rw [List.takeWhile_append_of_pos hmore, List.takeWhile_cons_of_neg (by decide), List.append_nil]
  unfold function?
  simp only [List.cons_append, htake, List.drop_left, hfirst]
  rfl

/-- The name of a function before a parenthesis. -/
theorem lexes_function {text : Text} (h : IsFunctionName text.toList) :
    Lexes text.toList [(.function, text)] ('(' :: rest) := by
  have hfunction := function?_of_isFunctionName h rest
  obtain ⟨c, more, htext, hfirst, -⟩ := h
  have hlexes : Lexes text.toList [(.function, Text.ofList text.toList)] ('(' :: rest) := by
    rw [htext] at hfunction ⊢
    refine lexes_of_lexeme? ?_ (not_isBlank_of_isLower hfirst) (by decide)
    rw [List.cons_append] at hfunction ⊢
    rw [lexeme?_of_isLower hfirst, hfunction]
    rfl
  rwa [Text.ofList_toList] at hlexes

theorem function?_eq_none {c : CodePoint} {more : List CodePoint}
    (hmore : ∀ d ∈ more, isFunctionChar d = true) (hrest : Stops rest) :
    function? (c :: (more ++ rest)) = none := by
  have htake : (more ++ rest).takeWhile isFunctionChar = more := by
    rw [List.takeWhile_append_of_pos hmore]
    cases rest with
    | nil => simp
    | cons d rest =>
      have hd : isFunctionChar d = false := hrest.any_eq_false (p := isFunctionChar) (by decide)
      rw [List.takeWhile_cons_of_neg (by simp [hd]), List.append_nil]
  have hparen : rest.head?.any (· == ('(' : CodePoint)) = false := hrest.any_eq_false (by decide)
  unfold function?
  simp only [htake, List.drop_left]
  cases rest with
  | nil => simp
  | cons d rest => simp_all

theorem word?_of_mem (hrest : rest.head?.any isNameChar = false) {text : Text}
    (htext : (text, kind) ∈ words) :
    word? (text.toList ++ rest) = some ⟨kind, text.toList.length⟩ := by
  have hname : rest[0]?.any isNameChar = false := by
    rw [← List.head?_eq_getElem?]
    exact hrest
  simp only [words, List.mem_cons, Prod.mk.injEq, List.not_mem_nil, or_false] at htext
  rcases htext with ⟨rfl, rfl⟩ | ⟨rfl, rfl⟩ | ⟨rfl, rfl⟩ <;> simp [word?, words, hname]

/-- A word where an operand ends. -/
theorem lexes_word (hrest : Stops rest) {text : Text} (htext : (text, kind) ∈ words) :
    Lexes text.toList [(kind, text)] rest := by
  have hword := word?_of_mem (hrest.any_eq_false (by decide)) htext
  have hparts : ∃ c more, text.toList = c :: more ∧ c.isLower = true ∧
      (∀ d ∈ more, isFunctionChar d = true) ∧
      kind ∉ [TokenKind.dot, .doubleDot, .singleQuoted, .doubleQuoted] := by
    simp only [words, List.mem_cons, Prod.mk.injEq, List.not_mem_nil, or_false] at htext
    rcases htext with ⟨rfl, rfl⟩ | ⟨rfl, rfl⟩ | ⟨rfl, rfl⟩ <;>
      exact ⟨_, _, rfl, rfl, by simp; decide, by decide⟩
  obtain ⟨c, more, hchars, hlower, hmore, hkind⟩ := hparts
  rw [← Text.ofList_toList (t := text), Text.toList_ofList, hchars]
  rw [hchars] at hword
  refine lexes_of_lexeme? ?_ (not_isBlank_of_isLower hlower) hkind
  rw [List.cons_append] at hword ⊢
  rw [lexeme?_of_isLower hlower, function?_eq_none hmore hrest, hword]
  rfl

/-- The name of the infinite numbers is no word. -/
theorem refused_infinity (negative : Bool) :
    Refused (Numeral.minus negative ++ ("Infinity" : Text).toList) rest := by
  intro query offset
  have hlexeme : ∃ c more,
      Numeral.minus negative ++ ("Infinity" : Text).toList ++ rest = c :: more ∧
      Text.isBlank c = false ∧ lexeme? (c :: more) = .ok none := by
    cases negative with
    | false => exact ⟨'I', _, rfl, rfl, rfl⟩
    | true => exact ⟨'-', _, rfl, rfl, rfl⟩
  obtain ⟨c, more, heq, hblank, hnone⟩ := hlexeme
  rw [heq]
  have htokens := tokensFrom_eq query offset (List.forall_mem_nil _) hblank more
  rw [hnone] at htokens
  exact ⟨_, htokens⟩

/-- A text that comes to tokens as a whole, from its root on. -/
theorem Lexes.ofQuery {text : Text} {more : List CodePoint}
    (htext : text.toList = ('$' : CodePoint) :: more)
    (h : Lexes text.toList ss []) : ∃ ts final, Token.ofQuery text = .ok (ts ++ [final]) ∧
      final.kind = .endOfQuery ∧ ts.map Token.shape = ss := by
  obtain ⟨ts, hshapes, htokens⟩ := h text 0
  let final : Token :=
    ⟨.endOfQuery, "", 0 + text.toList.length, 0 + text.toList.length, text⟩
  have hend : tokensFrom text none (0 + text.toList.length) [] = .ok [final] := by
    rw [tokensFrom.eq_def]
    rfl
  have hquery : Token.ofQuery text = tokensFrom text none 0 text.toList := by
    unfold Token.ofQuery
    rw [htext]
    rfl
  rw [List.append_nil, hend] at htokens
  exact ⟨ts, final, hquery.trans htokens, rfl, hshapes⟩

end Lexer

end JsonPath
