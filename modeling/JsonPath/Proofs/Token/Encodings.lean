import Mathlib
import JsonPath.Proofs.Parser.Moved

/-!
# String literals are read exactly

The lexer and the decoder go through a literal each on its own: the one takes whatever follows a
backslash along, the other knows the escapes. They agree because a literal that the decoder reads is
written character by character, and past what is written for a character the lexer goes at once.
-/

namespace JsonPath

namespace StringLiteral

open CodePoint (IsScalar)
open Lexer (closingQuote?)

variable {quote c : CodePoint} {cs rest s : List CodePoint}

/-- What is read as an escape is one by the units of its character. -/
theorem spelled_of_unicodeEscape (h : unicodeEscape cs = .ok (c, rest)) :
    ∃ digits : List CodePoint, cs = digits ++ rest ∧
      Spelled IsScalar quote c ('\\' :: 'u' :: digits) := by
  unfold unicodeEscape at h
  split at h
  · cases h
  next unit after hunit =>
    obtain ⟨hlt, digits, rfl, hdigits⟩ := Text.writesUnit_of_unit? hunit
    split at h
    · cases h
    next hnotLow =>
      split at h
      next hhigh =>
        split at h
        next more =>
          split at h
          next low after hlow =>
            obtain ⟨-, digits', rfl, hdigits'⟩ := Text.writesUnit_of_unit? hlow
            split at h
            next hislow =>
              simp only [Except.ok.injEq, Prod.mk.injEq] at h
              obtain ⟨rfl, rfl⟩ := h
              exact ⟨digits ++ ('\\' : CodePoint) :: 'u' :: digits', by simp,
                .pair (Text.utf16_joinSurrogates hhigh hislow) hdigits hdigits'⟩
            · cases h
          · cases h
        · cases h
      next hnotHigh =>
        simp only [Except.ok.injEq, Prod.mk.injEq] at h
        obtain ⟨rfl, rfl⟩ := h
        have hnumber : (CodePoint.ofNat unit).toNat = unit := CodePoint.toNat_ofNat (by omega)
        have hscalar : (CodePoint.ofNat unit).IsScalar := by
          rw [IsScalar, isSurrogate_toNat, hnumber]
          simp [hnotHigh, hnotLow]
        exact ⟨digits, rfl, .unit hscalar (Text.utf16_ofNat hlt) hdigits⟩

/-- A text in which no quote stands open is read only if it encodes what it is read as. -/
theorem encodes_of_decode (hquote : quote = '\'' ∨ quote = '"')
    (hclosing : closingQuote? quote cs = none) (h : decode quote cs = .ok s) :
    Encodes IsScalar quote s cs := by
  have hrest {c : CodePoint} {cs rest : List CodePoint} (hc : Spelled IsScalar quote c cs)
      (h : closingQuote? quote (cs ++ rest) = none) : closingQuote? quote rest = none := by
    rwa [Lexer.closingQuote?_spelled hquote hc, Option.map_eq_none_iff] at h
  fun_induction decode quote cs generalizing s with
  | case1 =>
    cases h
    exact .nil
  | case2 | case3 | case6 | case7 => cases h
  | case4 digits c rest hescape _ ih =>
    obtain ⟨text, htext, heq⟩ := Parser.bind_eq_ok_iff.1 h
    cases heq
    obtain ⟨digits, rfl, hc⟩ := spelled_of_unicodeEscape hescape
    exact .cons hc (ih (hrest hc hclosing) htext)
  | case5 letter rest _ c hchar ih =>
    obtain ⟨text, htext, heq⟩ := Parser.bind_eq_ok_iff.1 h
    cases heq
    have hc : Spelled IsScalar quote c ['\\', letter] := by
      rcases (unescape?_eq_some_iff hquote).1 hchar with hsimple | ⟨rfl, rfl⟩
      · exact .short hsimple
      · exact .quote
    exact .cons hc (ih (hrest hc hclosing) htext)
  | case8 c rest hend _ hescape hcontrol ih =>
    obtain ⟨text, htext, heq⟩ := Parser.bind_eq_ok_iff.1 h
    cases heq
    have hslash : c ≠ '\\' := fun hc => by
      cases rest with
      | nil => exact hend hc rfl
      | cons next more => exact hescape next more hc rfl
    have hopen : c ≠ quote := fun hc => by
      rw [hc, Lexer.closingQuote?_quote] at hclosing
      cases hclosing
    have hc : Spelled IsScalar quote c [c] := .itself hopen hslash hcontrol
    exact .cons hc (ih (hrest hc hclosing) htext)

theorem faultClass_of_unicodeEscape {fault : QueryFault} (h : unicodeEscape cs = .error fault) :
    fault.faultClass = .syntaxFault := by
  unfold unicodeEscape at h
  repeat' split at h
  all_goals cases h <;> rfl

/-- What is not read is refused as a fault of syntax. -/
theorem faultClass_of_decode {fault : QueryFault} (h : decode quote cs = .error fault) :
    fault.faultClass = .syntaxFault := by
  have hrest {c : CodePoint} {rest : List CodePoint}
      (h : (do return c :: (← decode quote rest)) = Except.error fault) :
      decode quote rest = .error fault := by
    cases hdecode : decode quote rest <;> rw [hdecode] at h <;> cases h
    rfl
  fun_induction decode quote cs with
  | case1 => cases h
  | case2 | case6 | case7 =>
    cases h
    rfl
  | case3 _ _ hescape =>
    cases h
    exact faultClass_of_unicodeEscape hescape
  | case4 _ _ _ _ _ ih => exact ih (hrest h)
  | case5 _ _ _ _ _ ih => exact ih (hrest h)
  | case8 _ _ _ _ _ _ ih => exact ih (hrest h)

end StringLiteral

namespace Lexer

variable {cs : List CodePoint} {lexeme : Lexeme} {offset : Nat}

/-- The closing quote is the first that stands open. -/
theorem exists_body_of_closingQuote? {quote : CodePoint} {n : Nat}
    (h : closingQuote? quote cs = some n) :
    ∃ body rest, cs = body ++ quote :: rest ∧ n = body.length + 1 ∧
      closingQuote? quote body = none := by
  fun_induction closingQuote? quote cs generalizing n with
  | case1 => cases h
  | case2 rest =>
    cases h
    exact ⟨[], rest, rfl, rfl, rfl⟩
  | case3 => cases h
  | case4 next rest hne ih =>
    obtain ⟨m, hm, rfl⟩ := Option.map_eq_some_iff.1 h
    obtain ⟨body, after, rfl, rfl, hbody⟩ := ih hm
    refine ⟨'\\' :: next :: body, after, rfl, rfl, ?_⟩
    rw [closingQuote?_escape (Ne.symm hne), hbody]
    rfl
  | case5 c rest hne hslash ih =>
    obtain ⟨m, hm, rfl⟩ := Option.map_eq_some_iff.1 h
    obtain ⟨body, after, rfl, rfl, hbody⟩ := ih hm
    refine ⟨c :: body, after, rfl, rfl, ?_⟩
    rw [closingQuote?.eq_def]
    simp only [if_neg hne, if_neg hslash, hbody, Option.map_none]

theorem eq_of_quoteKind? {quote : CodePoint} {kind : TokenKind} (h : quoteKind? quote = some kind) :
    quote = '\'' ∨ quote = '"' :=
  (quoteKind?_eq_some_iff.1 h).imp And.left And.left

theorem quoteKind?_injective {quote quote' : CodePoint} {kind : TokenKind}
    (h : quoteKind? quote = some kind) (h' : quoteKind? quote' = some kind) : quote = quote' := by
  rcases quoteKind?_eq_some_iff.1 h with ⟨rfl, rfl⟩ | ⟨rfl, rfl⟩ <;>
    rcases quoteKind?_eq_some_iff.1 h' with ⟨rfl, hkind⟩ | ⟨rfl, hkind⟩ <;>
    first | rfl | cases hkind

end Lexer

/-- No quote stands open in the text of a literal, which the first of them would have closed. -/
def Token.IsClosed (token : Token) : Prop :=
  ∀ quote, Lexer.quoteKind? quote = some token.kind →
    Lexer.closingQuote? quote token.text.toList = none

namespace Lexer

variable {cs : List CodePoint} {lexeme : Lexeme} {offset : Nat}

theorem isClosed_of_kind {token : Token}
    (h : token.kind ∉ [TokenKind.singleQuoted, .doubleQuoted]) : token.IsClosed := by
  intro quote hquote
  rcases quoteKind?_eq_some_iff.1 hquote with ⟨-, hkind⟩ | ⟨-, hkind⟩ <;> simp [hkind] at h

/-- Only string literals are in quotes: one that closes the literal, and the same one before it. -/
theorem quoted_or_of_lexeme? (h : lexeme? cs = .ok (some lexeme)) :
    lexeme.kind ∉ [TokenKind.singleQuoted, .doubleQuoted] ∨
      ∃ quote kind body rest, quoteKind? quote = some kind ∧ lexeme = ⟨kind, body.length + 2⟩ ∧
        cs = quote :: (body ++ quote :: rest) ∧ closingQuote? quote body = none := by
  unfold lexeme? at h
  split at h
  next found hfound =>
    cases h
    left
    rcases Option.or_eq_some_iff.1 hfound with hsymbol | ⟨-, hnumber⟩
    · have hfixed : ∀ kind ∈ symbols.map Prod.snd,
        kind ∉ [TokenKind.singleQuoted, .doubleQuoted] := by decide
      exact hfixed _ (kind_mem_of_symbol? hsymbol)
    · obtain ⟨n, -, hkind⟩ := spells_of_number? "" 0 hnumber
      cases hinteger : n.isInteger <;> simp [hkind, hinteger]
  · split at h
    · cases h
    next quote rest _ =>
      split at h
      next kind hquote =>
        split at h
        next length hlength =>
          cases h
          obtain ⟨body, after, rfl, rfl, hbody⟩ := exists_body_of_closingQuote? hlength
          exact .inr ⟨quote, kind, body, after, hquote, rfl, rfl, hbody⟩
        · cases h
      · simp only [Except.ok.injEq] at h
        left
        rcases Option.or_eq_some_iff.1 h with hfunction | ⟨-, hword⟩
        · have hkind : lexeme.kind = .function := (isFunctionName_of_function? "" 0 hfunction).1
          simp [hkind]
        · have hfixed : ∀ kind ∈ words.map Prod.snd,
            kind ∉ [TokenKind.singleQuoted, .doubleQuoted] := by decide
          exact hfixed _ (kind_mem_of_word? hword)

theorem isClosed_of_lexeme? (offset : Nat) (h : lexeme? cs = .ok (some lexeme)) :
    (lexeme.token query offset cs).IsClosed := by
  rcases quoted_or_of_lexeme? h with hkind | ⟨quote, kind, body, rest, hquote, rfl, rfl, hbody⟩
  · exact isClosed_of_kind hkind
  · rw [token_quoted hquote]
    intro quote' hquote'
    rwa [Text.toList_ofList, quoteKind?_injective hquote' hquote]

theorem isClosed_of_tokensFrom {dots? : Option TokenKind} {tokens : List Token}
    (h : tokensFrom query dots? offset cs = .ok tokens) : ∀ token ∈ tokens, token.IsClosed := by
  fun_induction tokensFrom query dots? offset cs generalizing tokens with
  | case1 | case5 | case6 | case7 => cases h
  | case2 _ _ _ _ ih => exact ih h
  | case3 offset cs dots lexeme hlexeme _ ih =>
    obtain ⟨more, hmore, htokens⟩ := Parser.bind_eq_ok_iff.1 h
    cases htokens
    refine List.forall_mem_cons.2 ⟨isClosed_of_kind ?_, ih hmore⟩
    rcases kind_of_shorthand? hlexeme with hkind | hkind <;> simp [Lexeme.token, hkind]
  | case4 offset =>
    cases h
    exact List.forall_mem_singleton.2 (isClosed_of_kind (by simp))
  | case8 offset cs _ _ rest start c hc lexeme hlexeme _ dots? =>
    rename_i ih
    obtain ⟨more, hmore, htokens⟩ := Parser.bind_eq_ok_iff.1 h
    cases htokens
    exact List.forall_mem_cons.2 ⟨isClosed_of_lexeme? _ hlexeme, ih hmore⟩

end Lexer

theorem Token.isClosed_of_ofQuery {text : Text} {tokens : List Token}
    (h : Token.ofQuery text = .ok tokens) : ∀ token ∈ tokens, token.IsClosed := by
  unfold Token.ofQuery at h
  dsimp only at h
  split at h
  · cases h
  · split at h
    · cases h
    · exact Lexer.isClosed_of_tokensFrom h

section Literal

open CodePoint (IsScalar)
open StringLiteral (Encodes)

variable {quote : CodePoint} {kind : TokenKind} {token : Token}

theorem Token.literalText_eq (hquote : Lexer.quoteKind? quote = some kind)
    (hkind : token.kind = kind) :
    token.literalText =
      ((StringLiteral.decode quote token.text.toList).map Text.ofList).mapError fun fault =>
        ⟨fault, some token⟩ := by
  have hchoice : (if token.kind = .singleQuoted then '\'' else '"' : CodePoint) = quote := by
    rcases Lexer.quoteKind?_eq_some_iff.1 hquote with ⟨rfl, rfl⟩ | ⟨rfl, rfl⟩ <;> simp [hkind]
  unfold Token.literalText
  simp only [hchoice]
  cases StringLiteral.decode quote token.text.toList <;> rfl

/-- The text of a literal is what it encodes. -/
theorem Token.literalText_eq_ok_iff_encodes (hquote : Lexer.quoteKind? quote = some kind)
    (hkind : token.kind = kind) (hclosed : token.IsClosed) {s : Text} :
    token.literalText = .ok s ↔ Encodes IsScalar quote s.toList token.text.toList := by
  have hcases := Lexer.eq_of_quoteKind? hquote
  rw [Token.literalText_eq hquote hkind]
  constructor
  · intro h
    cases hdecode : StringLiteral.decode quote token.text.toList with
    | error fault =>
      rw [hdecode] at h
      cases h
    | ok cs =>
      rw [hdecode] at h
      cases h
      rw [Text.toList_ofList]
      exact StringLiteral.encodes_of_decode hcases (hclosed quote (hkind ▸ hquote)) hdecode
  · intro h
    rw [h.decode hcases]
    exact congrArg Except.ok Text.ofList_toList

theorem Token.error_of_literalText (hquote : Lexer.quoteKind? quote = some kind)
    (hkind : token.kind = kind) {error : QueryError} (h : token.literalText = .error error) :
    error.token? = some token ∧ error.fault.faultClass = .syntaxFault := by
  rw [Token.literalText_eq hquote hkind] at h
  cases hdecode : StringLiteral.decode quote token.text.toList with
  | ok cs =>
    rw [hdecode] at h
    cases h
  | error fault =>
    rw [hdecode] at h
    cases h
    exact ⟨rfl, StringLiteral.faultClass_of_decode hdecode⟩

/-- **String literals are read exactly.** Whatever encodes a text between quotes, with the number of
no surrogate that stands alone, comes to one token, which ends right behind the second quote and
stands for that text, whatever follows. Conversely the token of a literal in a query stands for a
text only if it encodes it so, and every other is refused as a fault of syntax at the token. -/
theorem literalText_exact (hquote : Lexer.quoteKind? quote = some kind) :
    (∀ (s e rest : List CodePoint) (query : Text) (offset : Nat), Encodes IsScalar quote s e →
      let cs := quote :: (e ++ quote :: rest)
      let token : Token := ⟨kind, Text.ofList e, offset, offset + (e.length + 2), query⟩
      Lexer.lexeme? cs = .ok (some ⟨kind, e.length + 2⟩) ∧
      Lexer.tokensFrom query none offset cs =
        (token :: ·) <$> Lexer.tokensFrom query none token.stop rest ∧
      token.literalText = .ok (Text.ofList s)) ∧
    ∀ (text : Text) (tokens : List Token), Token.ofQuery text = .ok tokens →
      ∀ token ∈ tokens, token.kind = kind →
        (∀ s : Text,
          token.literalText = .ok s ↔ Encodes IsScalar quote s.toList token.text.toList) ∧
        ∀ error, token.literalText = .error error →
          error.token? = some token ∧ error.fault.faultClass = .syntaxFault := by
  have hcases := Lexer.eq_of_quoteKind? hquote
  constructor
  · intro s e rest query offset h cs token
    have hclosing := Lexer.closingQuote?_encodes hcases h rest
    refine ⟨Lexer.lexeme?_quoted hquote hclosing,
      Lexer.tokensFrom_quoted hquote hclosing query offset, ?_⟩
    rw [Token.literalText_eq hquote rfl, Text.toList_ofList, h.decode hcases]
    rfl
  · intro text tokens htokens token hmem hkind
    have hclosed := Token.isClosed_of_ofQuery htokens token hmem
    exact ⟨fun s => Token.literalText_eq_ok_iff_encodes hquote hkind hclosed,
      fun error => Token.error_of_literalText hquote hkind⟩

/-- A quote and a surrogate pair are escaped before a bracket; a high surrogate alone is refused. -/
theorem literalText_exact_surrogates :
    Lexer.quoteKind? '\'' = some .singleQuoted ∧
    Encodes IsScalar '\'' ['\'', '😀'] ("\\'\\uD83d\\uDE00" : Text).toList ∧
    (Token.mk .singleQuoted "\\'\\uD83d\\uDE00" 2 18 "$['\\'\\uD83d\\uDE00']").literalText =
      .ok "'😀" ∧
    ∃ tokens, Token.ofQuery "$['\\uD83d']" = .ok tokens ∧
      ∃ token ∈ tokens, token.kind = .singleQuoted ∧
        ∃ error, token.literalText = .error error ∧ error.fault.faultClass = .syntaxFault := by
  have hquote : Lexer.quoteKind? '\'' = some .singleQuoted := rfl
  have hhigh : Text.WritesUnit 0xD83D ['D', '8', '3', 'd'] := by
    unfold Text.WritesUnit
    decide
  have hlow : Text.WritesUnit 0xDE00 ['D', 'E', '0', '0'] := by
    unfold Text.WritesUnit
    decide
  have hunits : Text.utf16 '😀' = [0xD83D, 0xDE00] := by decide
  have hpair : Encodes IsScalar '\'' ['\'', '😀'] ("\\'\\uD83d\\uDE00" : Text).toList :=
    .cons .quote (.cons (.pair hunits hhigh hlow) .nil)
  obtain ⟨hread, hrefused⟩ := literalText_exact hquote
  obtain ⟨-, -, htext⟩ := hread _ _ [']'] _ 2 hpair
  let token : Token := ⟨.singleQuoted, "\\uD83d", 2, 10, "$['\\uD83d']"⟩
  obtain ⟨tokens, htokens, hmem⟩ : ∃ tokens, Token.ofQuery "$['\\uD83d']" = .ok tokens ∧
      token ∈ tokens :=
    ⟨_, by cbv, List.mem_cons_of_mem _ (List.mem_cons_of_mem _ List.mem_cons_self)⟩
  obtain ⟨error, herror⟩ : ∃ error, token.literalText = .error error := ⟨_, by cbv⟩
  obtain ⟨-, hfault⟩ := hrefused _ _ htokens token hmem rfl
  exact ⟨hquote, hpair, htext, tokens, htokens, token, hmem, rfl, error, herror,
    (hfault error herror).2⟩

/-- A surrogate alone is not read from its number, and the numbers of two are read as one character,
so not all that encodes a text with the numbers of any units stands for it. -/
theorem not_literalText_of_encodes_surrogates :
    (∃ tokens, Token.ofQuery "$['\\ud800']" = .ok tokens ∧
      ⟨.singleQuoted, "\\ud800", 2, 10, "$['\\ud800']"⟩ ∈ tokens) ∧
    (∃ error, (Token.mk .singleQuoted "\\ud800" 2 10 "$['\\ud800']").literalText = .error error) ∧
    (Token.mk .singleQuoted "\\ud83d\\ude00" 2 16 "$['\\ud83d\\ude00']").literalText =
      .ok "😀" ∧
    ¬ ∀ (s e : List CodePoint) (query : Text), Encodes (fun _ => True) '\'' s e →
      (Token.mk .singleQuoted ⟨e⟩ 2 (e.length + 4) query).literalText = .ok ⟨s⟩ := by
  have hrefused : ∃ error,
      (Token.mk .singleQuoted "\\ud800" 2 10 "$['\\ud800']").literalText = .error error :=
    ⟨_, by cbv⟩
  have hhigh : Text.WritesUnit 0xD83D ['d', '8', '3', 'd'] := by
    unfold Text.WritesUnit
    decide
  have hlow : Text.WritesUnit 0xDE00 ['d', 'e', '0', '0'] := by
    unfold Text.WritesUnit
    decide
  have hpair : Encodes IsScalar '\'' ['😀'] ("\\ud83d\\ude00" : Text).toList :=
    .cons (.pair (by decide) hhigh hlow) .nil
  have hjoined :
      (Token.mk .singleQuoted "\\ud83d\\ude00" 2 16 "$['\\ud83d\\ude00']").literalText =
        .ok "😀" := by
    have hquote : Lexer.quoteKind? '\'' = some .singleQuoted := rfl
    rw [Token.literalText_eq hquote rfl, hpair.decode (.inl rfl)]
    rfl
  refine ⟨⟨_, by cbv, List.mem_cons_of_mem _ (List.mem_cons_of_mem _ List.mem_cons_self)⟩,
    hrefused, hjoined, fun hall => ?_⟩
  have hunit : Text.WritesUnit 0xD800 ['d', '8', '0', '0'] := by
    unfold Text.WritesUnit
    decide
  have hencodes : Encodes (fun _ => True) '\'' [.surrogate 0] ("\\ud800" : Text).toList :=
    .cons (.unit trivial rfl hunit) .nil
  obtain ⟨error, herror⟩ := hrefused
  have hread : (Token.mk .singleQuoted "\\ud800" 2 10 "$['\\ud800']").literalText =
      .ok ⟨[.surrogate 0]⟩ := hall _ _ "$['\\ud800']" hencodes
  rw [herror] at hread
  cases hread

end Literal

end JsonPath
