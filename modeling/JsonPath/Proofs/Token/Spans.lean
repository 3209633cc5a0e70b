import JsonPath.Proofs.Token.Encodings
import JsonPath.Proofs.Token.Spacing
import Mathlib.Data.List.Chain

/-!
# Spans

The tokens of a query and the blanks between them make up the query. Each lexeme computes where it
ends on its own, from the kind of text it takes, and the next is read from there; so what has to be
known at each point is that the text still to be read is the rest of the query from that offset on.
-/

namespace JsonPath

/-- What stands in a query where the token is: its text, in quotes if it is a string literal. -/
def Token.written (token : Token) : List CodePoint :=
  match token.kind with
  | .singleQuoted => '\'' :: (token.text.toList ++ [('\'' : CodePoint)])
  | .doubleQuoted => '"' :: (token.text.toList ++ [('"' : CodePoint)])
  | _ => token.text.toList

theorem Token.mem_written {token : Token} {c : CodePoint} (h : c ∈ token.text.toList) :
    c ∈ token.written := by
  unfold written
  split <;> simp [h]

/-- The token is one of the query, starts in it, and is what the query has in its span, as far as it
goes. -/
structure Token.StandsIn (query : Text) (token : Token) : Prop where
  query_eq : token.query = query
  start_le : token.start ≤ query.toList.length
  extract_eq : query.toList.extract token.start token.stop = token.written

namespace Lexer

variable {query : Text} {cs blanks : List CodePoint} {dots? : Option TokenKind}
  {dots : TokenKind} {offset : Nat}
  {lexeme : Lexeme} {tokens : List Token}

/-- The text is what the query has from the offset on. -/
structure IsRest (query : Text) (offset : Nat) (cs : List CodePoint) : Prop where
  le_length : offset ≤ query.toList.length
  drop_eq : query.toList.drop offset = cs

namespace IsRest

theorem length_eq (h : IsRest query offset cs) : offset + cs.length = query.toList.length := by
  have hle := h.le_length
  rw [← h.drop_eq, List.length_drop]
  omega

theorem advance (h : IsRest query offset cs) {n : Nat} (hn : n ≤ cs.length) :
    IsRest query (offset + n) (cs.drop n) := by
  have hlength := h.length_eq
  constructor
  · omega
  · rw [← List.drop_drop, h.drop_eq]

theorem extract_eq (h : IsRest query offset cs) (n : Nat) :
    query.toList.extract offset (offset + n) = cs.take n := by
  rw [List.extract_eq_take_drop, h.drop_eq, Nat.add_sub_cancel_left]

theorem after_blanks (h : IsRest query offset (blanks ++ cs)) :
    IsRest query (offset + blanks.length) cs := by
  have hrest := h.advance (List.length_append ▸ Nat.le_add_right blanks.length cs.length)
  rwa [List.drop_left] at hrest

theorem skip_blanks (h : IsRest query offset cs) :
    IsRest query (offset + (cs.takeWhile Text.isBlank).length)
      (cs.drop (cs.takeWhile Text.isBlank).length) :=
  h.advance (List.takeWhile_sublist _).length_le

end IsRest

/-! ### Lexemes -/

theorem written_of_kind (h : lexeme.kind ∉ [TokenKind.singleQuoted, .doubleQuoted])
    (query : Text) (offset : Nat) (cs : List CodePoint) :
    (lexeme.token query offset cs).written = cs.take lexeme.length := by
  simp only [List.mem_cons, List.not_mem_nil, or_false, not_or] at h
  unfold Token.written Lexeme.token
  dsimp only
  rw [if_neg (not_or.2 h)]
  split <;> simp_all

theorem written_of_lexeme? (h : lexeme? cs = .ok (some lexeme)) (query : Text)
    (offset : Nat) :
    (lexeme.token query offset cs).written = cs.take lexeme.length := by
  rcases quoted_or_of_lexeme? h with hkind | ⟨quote, kind, body, rest, hquote, rfl, rfl, -⟩
  · exact written_of_kind hkind query offset cs
  · have htake : (quote :: (body ++ quote :: rest)).take (body.length + 2) =
        quote :: (body ++ [quote]) := by
      rw [List.take_succ_cons, List.take_length_add_append]
      rfl
    rw [token_quoted hquote, htake]
    rcases quoteKind?_eq_some_iff.1 hquote with ⟨rfl, rfl⟩ | ⟨rfl, rfl⟩ <;>
      simp [Token.written]

theorem written_of_shorthand? (h : shorthand? dots cs = .ok (some lexeme))
    (query : Text) (offset : Nat) :
    (lexeme.token query offset cs).written = cs.take lexeme.length := by
  refine written_of_kind ?_ query offset cs
  rcases kind_of_shorthand? h with hkind | hkind <;> simp [hkind]

theorem IsRest.standsIn (h : IsRest query offset cs)
    (hwritten : (lexeme.token query offset cs).written = cs.take lexeme.length) :
    (lexeme.token query offset cs).StandsIn query :=
  ⟨rfl, h.le_length, (h.extract_eq lexeme.length).trans hwritten.symm⟩

/-! ### Tokens -/

namespace Tokenizes

theorem standsIn (h : Tokenizes query dots? offset cs tokens) (hrest : IsRest query offset cs) :
    ∀ t ∈ tokens, t.StandsIn query ∧ t.stop ≤ query.toList.length := by
  induction h with
  | @done offset =>
    refine List.forall_mem_singleton.2 ⟨⟨rfl, hrest.le_length, ?_⟩, hrest.le_length⟩
    rw [List.extract_eq_take_drop, Nat.sub_self]
    rfl
  | bracket _ _ ih => exact ih hrest
  | @shorthand dots offset cs lexeme tokens hlexeme _ ih =>
    have hle := (within_of_shorthand? hlexeme).2
    have hnext := hrest.advance hle
    refine List.forall_mem_cons.2 ⟨⟨?_, hnext.le_length⟩, ih hnext⟩
    exact hrest.standsIn (written_of_shorthand? hlexeme query offset)
  | @lexeme offset blanks c cs lexeme tokens hblanks hc hlexeme _ ih =>
    have hstart := hrest.after_blanks
    have hnext := hstart.advance (within_of_lexeme? hlexeme).2
    refine List.forall_mem_cons.2 ⟨⟨?_, hnext.le_length⟩, ih hnext⟩
    exact hstart.standsIn (written_of_lexeme? hlexeme query _)

/-- The query ends where its end token stands. -/
theorem getLast?_eq (h : Tokenizes query dots? offset cs tokens) (hrest : IsRest query offset cs) :
    tokens.getLast? =
      some ⟨.endOfQuery, "", query.toList.length, query.toList.length, query⟩ := by
  induction h with
  | done =>
    rw [← hrest.length_eq]
    rfl
  | bracket _ _ ih => exact ih hrest
  | shorthand hlexeme _ ih =>
    have hlast := ih (hrest.advance (within_of_shorthand? hlexeme).2)
    rw [List.getLast?_cons, hlast]
    rfl
  | lexeme _ _ hlexeme _ ih =>
    have hlast := ih (hrest.after_blanks.advance (within_of_lexeme? hlexeme).2)
    rw [List.getLast?_cons, hlast]
    rfl

/-- Before the next token there are blanks. -/
theorem isBlank_before (h : Tokenizes query dots? offset cs tokens)
    (hrest : IsRest query offset cs) :
    ∀ u ∈ tokens.head?, ∀ c ∈ query.toList.extract offset u.start, Text.isBlank c = true := by
  have hnothing : query.toList.extract offset offset = [] := by
    rw [List.extract_eq_take_drop, Nat.sub_self, List.take_zero]
  induction h with
  | done | shorthand =>
    rintro u ⟨⟩
    dsimp only [Lexeme.token]
    rw [hnothing]
    exact List.forall_mem_nil _
  | bracket _ _ ih => exact ih hrest hnothing
  | @lexeme offset blanks c cs lexeme tokens hblanks hc hlexeme _ ih =>
    rintro u ⟨⟩
    intro b hb
    have hextract := hrest.extract_eq blanks.length
    rw [List.take_left] at hextract
    exact hblanks b (hextract ▸ hb)

/-- What is no blank is the start of a lexeme. -/
theorem exists_lexeme {c : CodePoint} (hc : Text.isBlank c = false)
    (h : Tokenizes query none offset (c :: cs) tokens) :
    ∃ lexeme more, lexeme? (c :: cs) = .ok (some lexeme) ∧
      tokens = lexeme.token query offset (c :: cs) :: more := by
  generalize hcs : c :: cs = cs' at h
  cases h with
  | done => cases hcs
  | @lexeme _ blanks c' cs' lexeme more hblanks _ hlexeme _ =>
    cases blanks with
    | nil => exact ⟨lexeme, more, hlexeme, rfl⟩
    | cons b blanks =>
      obtain ⟨rfl, -⟩ := List.cons.inj hcs
      exact absurd (hblanks c List.mem_cons_self) (by simp [hc])

/-- What stands after dots. -/
theorem exists_after_dots (h : Tokenizes query (some dots) offset cs tokens) :
    ∃ u ∈ tokens.head?, u.start = offset ∧
      (u.kind = .name ∨ u.kind = .wildcard ∨ dots = .doubleDot ∧ u.kind = .openSquare) := by
  cases h with
  | shorthand hlexeme hnext =>
    exact ⟨_, rfl, rfl, (kind_of_shorthand? hlexeme).imp_right Or.inl⟩
  | bracket hnone hnext =>
    obtain ⟨hdots, more, rfl⟩ := bracket_of_shorthand? hnone
    obtain ⟨lexeme, tokens, hlexeme, rfl⟩ := hnext.exists_lexeme (by decide)
    have hbracket : lexeme? ('[' :: more) = .ok (some ⟨.openSquare, 1⟩) := rfl
    cases hbracket.symm.trans hlexeme
    exact ⟨_, rfl, rfl, .inr (.inr ⟨hdots, rfl⟩)⟩

/-- Between a token and the next there are blanks, and after dots there is nothing. -/
theorem isChain (h : Tokenizes query dots? offset cs tokens) (hrest : IsRest query offset cs) :
    tokens.IsChain fun t u =>
      (∀ c ∈ query.toList.extract t.stop u.start, Text.isBlank c = true) ∧
      (t.kind = .dot ∨ t.kind = .doubleDot → t.stop = u.start ∧
        (u.kind = .name ∨ u.kind = .wildcard ∨ t.kind = .doubleDot ∧ u.kind = .openSquare)) := by
  induction h with
  | done => exact List.isChain_singleton _
  | bracket _ _ ih => exact ih hrest
  | @shorthand dots offset cs lexeme tokens hlexeme hnext ih =>
    have hafter := hrest.advance (within_of_shorthand? hlexeme).2
    refine (ih hafter).cons fun u hu => ⟨hnext.isBlank_before hafter u hu, fun hdots => ?_⟩
    rcases kind_of_shorthand? hlexeme with hkind | hkind <;> simp [Lexeme.token, hkind] at hdots
  | @lexeme offset blanks c cs lexeme tokens hblanks hc hlexeme hnext ih =>
    have hafter := hrest.after_blanks.advance (within_of_lexeme? hlexeme).2
    refine (ih hafter).cons fun u hu => ⟨hnext.isBlank_before hafter u hu, fun hdots => ?_⟩
    have hkind : lexeme.dots? = some lexeme.kind := if_pos hdots
    rw [hkind] at hnext
    obtain ⟨u', hu', hstart, hafter⟩ := hnext.exists_after_dots
    cases Option.mem_unique hu hu'
    exact ⟨hstart.symm, hafter⟩

end Tokenizes

end Lexer

/-! ### Queries -/

open Lexer (IsRest)

theorem isRest_query (text : Text) : IsRest text 0 text.toList :=
  ⟨Nat.zero_le _, List.drop_zero⟩

theorem mem_blanks {c : CodePoint} (h : Text.isBlank c = true) :
    c ∈ [(' ' : CodePoint), '\t', '\n', '\r'] := by
  simpa [Text.isBlank] using h

/-- **Tokens tile the query.** The tokens of a text stand in it one after the other, from its start
to its end, where the only end token is. Each of the others takes at least one character. Every
token knows the text, and is what the text has in its span, but for the quotes around a string
literal. Between two of them there are blanks at most, and nothing between dots and the name, the
wildcard or the bracket after them. -/
theorem ofQuery_tiles {text : Text} {tokens : List Token} (h : Token.ofQuery text = .ok tokens) :
    (∃ ts, tokens = ts ++ [⟨.endOfQuery, "", text.length, text.length, text⟩] ∧
      ∀ t ∈ ts, t.kind ≠ .endOfQuery ∧ t.start < t.stop) ∧
    (∀ t ∈ tokens, t.query = text ∧ t.stop ≤ text.length ∧
      text.toList.extract t.start t.stop = t.written) ∧
    (∃ t ∈ tokens.head?, t.start = 0) ∧
    tokens.Pairwise (fun t u => t.stop ≤ u.start) ∧
    tokens.IsChain fun t u =>
      (∀ c ∈ text.toList.extract t.stop u.start, c ∈ [(' ' : CodePoint), '\t', '\n', '\r']) ∧
      (t.kind = .dot ∨ t.kind = .doubleDot → t.stop = u.start ∧
        (u.kind = .name ∨ u.kind = .wildcard ∨ t.kind = .doubleDot ∧ u.kind = .openSquare)) := by
  obtain ⟨⟨c, hc, hblank⟩, htokens⟩ := tokenizes_of_ofQuery h
  have hrest := isRest_query text
  have hpairwise := htokens.pairwise
  refine ⟨?_, fun t ht => ?_, ?_, hpairwise.imp And.right, ?_⟩
  · obtain ⟨ts, final, rfl, -, hscanned⟩ := scanned_of_ofQuery h
    have hfinal := htokens.getLast?_eq hrest
    rw [List.getLast?_concat, Text.length_toList] at hfinal
    rw [Option.some.inj hfinal]
    refine ⟨ts, rfl, fun t ht => ⟨(hscanned.each t ht).notEnd, ?_⟩⟩
    exact ((List.pairwise_append.1 hpairwise).2.2 t ht final (List.mem_singleton_self _)).1
  · obtain ⟨hstands, hstop⟩ := htokens.standsIn hrest t ht
    rw [Text.length_toList] at hstop
    exact ⟨hstands.query_eq, hstop, hstands.extract_eq⟩
  · obtain ⟨cs, hcs⟩ := List.head?_eq_some_iff.1 hc
    rw [hcs] at htokens
    obtain ⟨lexeme, more, -, rfl⟩ := htokens.exists_lexeme hblank
    exact ⟨_, rfl, rfl⟩
  · exact (htokens.isChain hrest).imp fun t u htu => ⟨fun c hc => mem_blanks (htu.1 c hc), htu.2⟩

/-- The span of a literal starts behind blanks, and an escaped quote does not end it. -/
theorem ofQuery_tiles_literal :
    let text : Text := "$..[ \t'a\\'']"
    let literal : Token := ⟨.singleQuoted, "a\\'", 6, 11, text⟩
    let tokens : List Token := [⟨.root, "$", 0, 1, text⟩, ⟨.doubleDot, "..", 1, 3, text⟩,
      ⟨.openSquare, "[", 3, 4, text⟩, literal, ⟨.closeSquare, "]", 11, 12, text⟩,
      ⟨.endOfQuery, "", 12, 12, text⟩]
    Token.ofQuery text = .ok tokens ∧ literal.written = ("'a\\''" : Text).toList ∧
      text.toList.extract literal.start literal.stop = literal.written ∧
      tokens.Pairwise fun t u => t.stop ≤ u.start := by
  intro text literal tokens
  have htokens : Token.ofQuery text = .ok tokens := by
    subst tokens literal text
    cbv
  obtain ⟨-, hspans, -, hpairwise, -⟩ := ofQuery_tiles htokens
  exact ⟨htokens, by decide, (hspans literal (by simp [tokens])).2.2, hpairwise⟩

end JsonPath
