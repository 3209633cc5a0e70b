import JsonPath.Proofs.Parser.Soundness

/-!
# Scanned tokens

What the lexer makes of a text is a sequence of tokens as the parser expects them, closed by its
only end token. On such a sequence an end token can only be the last, so the parser reads all of it.
-/

namespace JsonPath

namespace Lexer

variable {cs : List CodePoint} {lexeme : Lexeme} {offset : Nat}

theorem kind_mem_of_symbol? (h : symbol? cs = some lexeme) :
    lexeme.kind ∈ symbols.map Prod.snd := by
  obtain ⟨entry, hentry, rfl⟩ := Option.map_eq_some_iff.1 h
  exact List.mem_map_of_mem (List.mem_of_find?_eq_some hentry)

theorem kind_mem_of_word? (h : word? cs = some lexeme) : lexeme.kind ∈ words.map Prod.snd := by
  obtain ⟨entry, hentry, rfl⟩ := Option.map_eq_some_iff.1 h
  exact List.mem_map_of_mem (List.mem_of_find?_eq_some hentry)

/-- The token of a number keeps the text that the numeral was scanned from. -/
theorem spells_of_number? (query : Text) (offset : Nat) (h : number? cs = some lexeme) :
    ∃ n : Numeral, n.Spells (lexeme.token query offset cs).text.toList ∧
      lexeme.kind = if n.isInteger then .integer else .decimal := by
  obtain ⟨⟨n, rest⟩, hscan, rfl⟩ := Option.map_eq_some_iff.1 h
  obtain ⟨text, rfl, hspells⟩ := Numeral.spells_of_scan? hscan
  refine ⟨n, ?_, rfl⟩
  have hlength : (text ++ rest).length - rest.length = text.length := by simp
  have hunquoted : ¬ ((if n.isInteger then TokenKind.integer else .decimal) = .singleQuoted ∨
      (if n.isInteger then TokenKind.integer else .decimal) = .doubleQuoted) := by
    cases n.isInteger <;> simp
  simpa [Lexeme.token, hlength, hunquoted] using hspells

theorem isFunctionName_of_function? (query : Text) (offset : Nat) (h : function? cs = some lexeme) :
    (lexeme.token query offset cs).kind = .function ∧
      IsFunctionName (lexeme.token query offset cs).text.toList := by
  unfold function? at h
  split at h
  next c rest =>
    simp only [Option.ite_none_right_eq_some, Option.some.injEq, Bool.and_eq_true] at h
    obtain ⟨⟨hfirst, -⟩, rfl⟩ := h
    have htake : rest.take (rest.takeWhile isFunctionChar).length = rest.takeWhile isFunctionChar :=
      (List.prefix_iff_eq_take.1 (List.takeWhile_prefix _)).symm
    refine ⟨rfl, c, rest.takeWhile isFunctionChar, ?_, hfirst, ?_⟩
    · simp [Lexeme.token, htake]
    · exact List.all_eq_true.1 List.all_takeWhile
  · cases h

theorem scanned_of_lexeme? (h : lexeme? cs = .ok (some lexeme)) :
    (lexeme.token query offset cs).Scanned := by
  have hother (hkind : lexeme.kind ∉ [TokenKind.endOfQuery, .integer, .decimal, .function]) :
      (lexeme.token query offset cs).Scanned := by
    simp only [List.mem_cons, List.not_mem_nil, or_false, not_or] at hkind
    exact ⟨hkind.1, fun h => absurd h hkind.2.1, fun h => absurd h hkind.2.2.1,
      fun h => absurd h hkind.2.2.2⟩
  unfold lexeme? at h
  split at h
  next found hfound =>
    cases h
    rcases Option.or_eq_some_iff.1 hfound with hsymbol | ⟨-, hnumber⟩
    · have hmem := kind_mem_of_symbol? hsymbol
      have hfixed : ∀ kind ∈ symbols.map Prod.snd,
        kind ∉ [TokenKind.endOfQuery, .integer, .decimal, .function] := by decide
      exact hother (hfixed _ hmem)
    · obtain ⟨n, hspells, hkind⟩ := spells_of_number? query offset hnumber
      cases hinteger : n.isInteger with
      | true =>
        have hkind : (lexeme.token query offset cs).kind = .integer := by
          rw [hinteger] at hkind
          exact hkind
        exact ⟨by simp [hkind], fun _ => ⟨n, hspells, hinteger⟩, by simp [hkind], by simp [hkind]⟩
      | false =>
        have hkind : (lexeme.token query offset cs).kind = .decimal := by
          rw [hinteger] at hkind
          exact hkind
        exact ⟨by simp [hkind], by simp [hkind], fun _ => ⟨n, hspells⟩, by simp [hkind]⟩
  · split at h
    · cases h
    next c rest =>
      split at h
      next kind hquote =>
        split at h
        next length _ =>
          cases h
          refine hother ?_
          unfold quoteKind? at hquote
          split at hquote <;> cases hquote <;> simp
        · cases h
      · simp only [Except.ok.injEq] at h
        rcases Option.or_eq_some_iff.1 h with hfunction | ⟨-, hword⟩
        · obtain ⟨hkind, hname⟩ := isFunctionName_of_function? query offset hfunction
          exact ⟨by simp [hkind], by simp [hkind], by simp [hkind], fun _ => hname⟩
        · have hmem := kind_mem_of_word? hword
          have hfixed : ∀ kind ∈ words.map Prod.snd,
            kind ∉ [TokenKind.endOfQuery, .integer, .decimal, .function] := by decide
          exact hother (hfixed _ hmem)

theorem kind_of_shorthand? {dots : TokenKind} (h : shorthand? dots cs = .ok (some lexeme)) :
    lexeme.kind = .name ∨ lexeme.kind = .wildcard := by
  unfold shorthand? at h
  dsimp only at h
  split at h
  · cases h
  · split at h
    · cases h
      exact .inl rfl
    · split at h
      · cases h
        exact .inr rfl
      · split at h <;> cases h

/-- Only a bracket right behind two dots is left to be read as any other token is. -/
theorem bracket_of_shorthand? {dots : TokenKind} (h : shorthand? dots cs = .ok none) :
    dots = .doubleDot ∧ ∃ more, cs = ('[' : CodePoint) :: more := by
  unfold shorthand? at h
  dsimp only at h
  split at h
  · cases h
  next _ c more =>
    split at h
    · cases h
    · split at h
      · cases h
      · split at h
        next hopen => exact ⟨hopen.2, more, by rw [hopen.1]⟩
        · cases h

/-- The tokens of a text are scanned ones and an end token. After a dot stands no bracket. -/
theorem scanned_of_tokensFrom {dots? : Option TokenKind} {tokens : List Token}
    (h : tokensFrom query dots? offset cs = .ok tokens) :
    ∃ ts final, tokens = ts ++ [final] ∧ final.kind = .endOfQuery ∧ Scanned ts ∧
      (dots? = some .dot → ∀ t ∈ ts.head?, t.kind ≠ .openSquare) := by
  fun_induction tokensFrom query dots? offset cs generalizing tokens with
  | case1 | case5 | case6 | case7 => cases h
  | case2 offset cs dots hnone ih =>
    obtain ⟨ts, final, heq, hfinal, hts, -⟩ := ih h
    refine ⟨ts, final, heq, hfinal, hts, fun hdot => ?_⟩
    rw [(bracket_of_shorthand? hnone).1] at hdot
    cases hdot
  | case3 offset cs dots lexeme hlexeme _ ih =>
    obtain ⟨more, hmore, htokens⟩ := Parser.bind_eq_ok_iff.1 h
    cases htokens
    obtain ⟨ts, final, rfl, hfinal, hts, -⟩ := ih hmore
    have hkind : (lexeme.token query offset cs).kind = .name ∨
        (lexeme.token query offset cs).kind = .wildcard := kind_of_shorthand? hlexeme
    have hscanned : (lexeme.token query offset cs).Scanned := by
      rcases hkind with h | h <;> exact ⟨by simp [h], by simp [h], by simp [h], by simp [h]⟩
    refine ⟨_ :: ts, final, rfl, hfinal, hts.cons hscanned (fun hdot => ?_), fun _ t ht => ?_⟩
    · rcases hkind with h | h <;> simp [h] at hdot
    · cases ht
      rcases hkind with h | h <;> simp [h]
  | case4 offset =>
    cases h
    exact ⟨[], _, rfl, rfl, ⟨by simp, .nil⟩, by simp⟩
  | case8 offset cs _ _ rest start c hc lexeme hlexeme _ dots? =>
    rename_i ih
    obtain ⟨more, hmore, htokens⟩ := Parser.bind_eq_ok_iff.1 h
    cases htokens
    obtain ⟨ts, final, rfl, hfinal, hts, hhead⟩ := ih hmore
    refine ⟨_ :: ts, final, rfl, hfinal, ?_, by simp⟩
    refine hts.cons (scanned_of_lexeme? hlexeme) fun hdot => hhead ?_
    have hdot : lexeme.kind = .dot := hdot
    simp [dots?, hdot]

end Lexer

/-- The tokens of a query are scanned ones and an end token. -/
theorem scanned_of_ofQuery {text : Text} {tokens : List Token}
    (h : Token.ofQuery text = .ok tokens) :
    ∃ ts final, tokens = ts ++ [final] ∧ final.kind = .endOfQuery ∧ Scanned ts := by
  unfold Token.ofQuery at h
  dsimp only at h
  split at h
  · cases h
  · split at h
    · cases h
    · obtain ⟨ts, final, heq, hfinal, hts, -⟩ := Lexer.scanned_of_tokensFrom h
      exact ⟨ts, final, heq, hfinal, hts⟩

namespace Grammar

/-- On scanned tokens and an end token the parser accepts what the grammar derives. -/
theorem ofTokens_append_eq_ok_iff {dialect : Dialect} {ts : List Token} {final : Token}
    (hts : Scanned ts) (hfinal : final.kind = .endOfQuery) {query : Query} :
    Query.ofTokens dialect (ts ++ [final]) = .ok query ↔ Derives dialect .query ts query := by
  have hprepend : (⟨ts, final, hfinal⟩ : Stream) = (Stream.mk [] final hfinal).prepend ts := by
    simp [Stream.prepend]
  unfold Query.ofTokens
  simp only [Stream.ofTokens?_append hfinal]
  constructor
  · intro h
    obtain ⟨hroot, s₁, hsegs, hend⟩ := Parser.query_eq_ok_iff.1 h
    obtain ⟨us, hus, hderives⟩ := derived_segments hts.tail hsegs
    have heq := Stream.eq_prepend_peek_cons (by simp [hroot]) hus
    -- An end token is none of those that were scanned, so it is the final one that ends the query.
    have hnil : s₁.ahead = [] := by
      have hs₁ := Stream.scanned_rest hts heq
      by_contra hne
      obtain ⟨t, more, hmore⟩ := List.exists_cons_of_ne_nil hne
      have hpeek : s₁.peek = t := by simp [Stream.peek, hmore]
      exact (hs₁.each t (by simp [hmore])).notEnd (hpeek ▸ hend)
    have hahead := congrArg Stream.ahead heq
    simp only [Stream.prepend, hnil, List.append_nil] at hahead
    rw [hahead]
    exact .query hroot hderives
  · intro h
    rw [hprepend]
    exact h.accepted _ hfinal

/-- A text is a query if its tokens are derived. -/
theorem ofText_eq_ok_iff {dialect : Dialect} {text : Text} {query : Query} :
    Query.ofText dialect text = .ok query ↔ ∃ ts final,
      Token.ofQuery text = .ok (ts ++ [final]) ∧ Derives dialect .query ts query := by
  unfold Query.ofText
  constructor
  · intro h
    split at h
    next tokens htokens =>
      obtain ⟨ts, final, rfl, hfinal, hts⟩ := scanned_of_ofQuery htokens
      exact ⟨ts, final, htokens, (ofTokens_append_eq_ok_iff hts hfinal).1 h⟩
    · cases h
  · rintro ⟨ts, final, htokens, h⟩
    obtain ⟨ts', final', heq, hfinal, hts⟩ := scanned_of_ofQuery htokens
    obtain ⟨rfl, hfinals⟩ := List.append_inj' heq rfl
    cases hfinals
    rw [htokens]
    exact (ofTokens_append_eq_ok_iff hts hfinal).2 h

/-- A compiled text comes to derived tokens and an end token. -/
theorem derives_of_ofText {dialect : Dialect} {text : Text} {query : Query}
    (h : Query.ofText dialect text = .ok query) : ∃ ts final,
      Token.ofQuery text = .ok (ts ++ [final]) ∧ final.kind = .endOfQuery ∧
        Derives dialect .query ts query := by
  obtain ⟨ts, final, htokens, hderives⟩ := ofText_eq_ok_iff.1 h
  obtain ⟨ts', final', heq, hfinal, -⟩ := scanned_of_ofQuery htokens
  obtain ⟨rfl, hfinals⟩ := List.append_inj' heq rfl
  cases hfinals
  exact ⟨ts, final, htokens, hfinal, hderives⟩

/-- A token of another kind stands before the end token. -/
theorem exists_append_final {ts before after : List Token} {token final : Token}
    (hfinal : final.kind = .endOfQuery) (htoken : token.kind ≠ .endOfQuery)
    (h : ts ++ [final] = before ++ token :: after) :
    ∃ more, ts = before ++ token :: more ∧ after = more ++ [final] := by
  rcases List.eq_nil_or_concat after with rfl | ⟨more, last, rfl⟩
  · obtain ⟨-, hlast⟩ := List.append_inj' h rfl
    obtain ⟨rfl, -⟩ := List.cons.inj hlast
    exact absurd hfinal htoken
  · rw [List.concat_eq_append, ← List.cons_append, ← List.append_assoc] at h
    obtain ⟨hts, hlast⟩ := List.append_inj' h rfl
    exact ⟨more, hts, by rw [hlast, List.concat_eq_append]⟩

end Grammar

end JsonPath
