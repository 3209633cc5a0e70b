import JsonPath.Proofs.Parser.Composition
import JsonPath.Proofs.Token.Exchange

/-!
# Expressions in parentheses

The text of an expression that can stand in a filter can stand in parentheses as well, alone under a
negation or beside another one. There it comes to the same tokens, only further on, since the last
of them ends where it is seen to end, whether a bracket or a parenthesis comes after it.
-/

namespace JsonPath

open Lexer

namespace Lexer

variable {query : Text} {offset : Nat} {cs rest blanks : List CodePoint} {c : CodePoint}
  {ss : List Shape}
  {ts tokens : List Token} {closing final : Token}

/-- What a text comes to before a rest, and what comes after that. -/
theorem Lexes.tokenizes_iff (h : Lexes cs ss rest) (query : Text) (offset : Nat) :
    ∃ ts, ts.map Token.shape = ss ∧ ∀ tokens, Tokenizes query none offset (cs ++ rest) tokens ↔
      ∃ us, tokens = ts ++ us ∧ Tokenizes query none (offset + cs.length) rest us := by
  obtain ⟨ts, hshapes, heq⟩ := h query offset
  refine ⟨ts, hshapes, fun tokens => ⟨fun htokens => ?_, ?_⟩⟩
  · have hmap := heq.symm.trans (tokensFrom_of_tokenizes htokens)
    cases hus : tokensFrom query none (offset + cs.length) rest with
    | error error =>
      rw [hus] at hmap
      cases hmap
    | ok us =>
      rw [hus] at hmap
      cases hmap
      exact ⟨us, rfl, tokenizes_of_tokensFrom hus⟩
  · rintro ⟨us, rfl, hus⟩
    apply tokenizes_of_tokensFrom
    rw [heq, tokensFrom_of_tokenizes hus]
    rfl

/-- A text of one token, before what comes to tokens itself. -/
theorem Lexes.exists_token {kind : TokenKind} {text : Text} (h : Lexes cs [(kind, text)] rest)
    (htokens : Tokenizes query none (offset + cs.length) rest tokens) :
    ∃ t : Token, t.kind = kind ∧ Tokenizes query none offset (cs ++ rest) (t :: tokens) := by
  obtain ⟨ts, hshapes, hiff⟩ := h.tokenizes_iff query offset
  obtain ⟨t, rfl, hshape⟩ := List.map_eq_singleton_iff.1 hshapes
  exact ⟨t, (Prod.mk.inj hshape).1, (hiff _).2 ⟨tokens, rfl, htokens⟩⟩

theorem Tokenizes.behind_blanks (hblanks : ∀ b ∈ blanks, Text.isBlank b = true)
    (hc : Text.isBlank c = false)
    (h : Tokenizes query none (offset + blanks.length) (c :: cs) tokens) :
    Tokenizes query none offset (blanks ++ c :: cs) tokens := by
  have hthere := tokensFrom_eq query offset hblanks hc cs
  have hhere := tokensFrom_eq query (offset + blanks.length) (List.forall_mem_nil _) hc cs
  rw [List.nil_append, List.length_nil, Nat.add_zero] at hhere
  apply tokenizes_of_tokensFrom
  rw [hthere, ← hhere]
  exact tokensFrom_of_tokenizes h

theorem Tokenizes.eq_nil (h : Tokenizes query none offset cs [final]) : cs = [] := by
  cases h with
  | done => rfl
  | lexeme _ _ _ hnext =>
    obtain ⟨ts, last, heq⟩ := hnext.exists_final
    simp at heq

/-- Before the end there is nothing but the closing bracket, and blanks before it. -/
theorem Tokenizes.eq_closing (h : Tokenizes query none offset cs [closing, final])
    (hkind : closing.kind = .closeSquare) :
    ∃ blanks, cs = blanks ++ [(']' : CodePoint)] ∧ ∀ b ∈ blanks, Text.isBlank b = true := by
  cases h with
  | @lexeme _ blanks c cs lexeme _ hblanks hc hlexeme hnext =>
    have hlexeme_kind : lexeme.kind = .closeSquare := hkind
    have hsymbol := symbol?_of_lexeme? hlexeme (by rw [hlexeme_kind]; decide)
    obtain ⟨entry, hentry, rfl⟩ := Option.map_eq_some_iff.1 hsymbol
    have hbracket : ∀ entry ∈ symbols, entry.2 = .closeSquare → entry.1 = "]" := by decide
    have htext : entry.1 = "]" := hbracket entry (List.mem_of_find?_eq_some hentry) hlexeme_kind
    have hbegins : [(']' : CodePoint)] <+: c :: cs := by simpa [htext] using List.find?_some hentry
    obtain ⟨rest, heq⟩ := hbegins
    obtain ⟨rfl, rfl⟩ := List.cons.inj heq
    have hdots : Lexeme.dots? ⟨entry.2, entry.1.length⟩ = none := by
      unfold Lexeme.dots?
      rw [hlexeme_kind]
      rfl
    rw [hdots, htext] at hnext
    have hnil : rest = [] := hnext.eq_nil
    rw [hnil]
    exact ⟨blanks, rfl, hblanks⟩

/-- Before a closing parenthesis the text comes to the same tokens as before a closing bracket. -/
theorem Tokenizes.exchange_closing {more : List CodePoint} {vs : List Token}
    (h : Tokenizes query none offset (cs ++ [(']' : CodePoint)]) (ts ++ [closing, final]))
    (hkind : closing.kind = .closeSquare)
    (hlast : ∀ t ∈ ts.getLast?, t.kind ∉ [TokenKind.dot, .doubleDot, .function])
    (hvs : Tokenizes query none (offset + cs.length) (')' :: more) vs) :
    Tokenizes query none offset (cs ++ (')' : CodePoint) :: more) (ts ++ vs) := by
  obtain ⟨a, b, heq, hcut⟩ := h.exists_cut (List.cons_ne_nil _ _) (fun _ => rfl) hlast
  obtain ⟨blanks, rfl, hblanks⟩ := hcut.after.eq_closing hkind
  rw [← List.append_assoc] at heq
  obtain ⟨rfl, -⟩ := List.append_inj' heq rfl
  rw [List.append_assoc]
  rw [List.length_append, ← Nat.add_assoc] at hvs
  refine hcut.exchange _ _ ?_ (hvs.behind_blanks hblanks (by decide))
  cases blanks with
  | nil =>
    rintro c ⟨⟩
    decide
  | cons b blanks => exact .of_isBlank (hblanks b List.mem_cons_self) _

end Lexer

namespace Grammar

variable {dialect : Dialect} {ts us : List Token} {t : Token}

/-! ### Where expressions end -/

/-- The last of the tokens, if there is one, ends where it does whatever follows it. -/
def Complete (ts : List Token) : Prop :=
  ∀ t ∈ ts.getLast?, t.kind ∉ [TokenKind.dot, .doubleDot, .function]

theorem Complete.nil : Complete [] := fun _ ht => by cases ht

theorem Complete.append (hts : Complete ts) (hus : Complete us) : Complete (ts ++ us) := by
  intro t ht
  rw [List.getLast?_append] at ht
  cases hlast : us.getLast? with
  | none =>
    rw [hlast] at ht
    exact hts t ht
  | some u =>
    rw [hlast] at ht
    exact hus t (hlast ▸ ht)

theorem Complete.singleton (h : t.kind ∉ [TokenKind.dot, .doubleDot, .function]) :
    Complete [t] := by
  rintro _ ⟨⟩
  exact h

theorem Complete.cons (h : t.kind ∉ [TokenKind.dot, .doubleDot, .function]) (hts : Complete ts) :
    Complete (t :: ts) :=
  (Complete.singleton h).append hts

theorem Complete.concat (h : t.kind ∉ [TokenKind.dot, .doubleDot, .function]) (ts : List Token) :
    Complete (ts ++ [t]) := by
  intro u hu
  rw [List.getLast?_concat] at hu
  cases hu
  exact h

theorem EndsQuery.complete (h : EndsQuery ts) : Complete ts := by
  obtain ⟨t, ht, hkind⟩ := h
  intro u hu
  cases Option.mem_unique ht hu
  intro hmem
  simp only [List.mem_cons, List.not_mem_nil, or_false] at hmem
  rcases hmem with h | h | h <;> rw [h] at hkind <;> cases hkind

theorem Writes.complete {literal : Literal} (h : Writes t literal) : Complete [t] := by
  apply Complete.singleton
  cases h with
  | string hkind _ => rcases hkind with hkind | hkind <;> rw [hkind] <;> decide
  | integer hkind | decimal hkind | true hkind | false hkind | null hkind =>
    rw [hkind]
    decide

theorem Bound.complete {i? : Option Int} (h : Bound dialect ts i?) : Complete ts := by
  cases h with
  | absent => exact .nil
  | present hindex => exact .singleton (by rw [hindex.kind]; decide)

theorem Stride.complete {i? : Option Int} (h : Stride dialect ts i?) : Complete ts := by
  cases h with
  | absent => exact .nil
  | present hcolon hbound => exact hbound.complete.cons (by rw [hcolon]; decide)

/-- Nothing that is derived ends with dots or with the name of a function. -/
theorem Derives.complete {n : Nonterminal} {tree : n.Tree} (h : Derives dialect n ts tree) :
    Complete ts := by
  induction h with
  | query hroot _ ih | absolute hroot _ ih | relative hroot _ ih =>
    exact ih.cons (by rw [hroot]; decide)
  | noSegments => exact .nil
  | child hdot hshorthand _ => exact (Derives.child hdot hshorthand).closes.complete
  | descendant hdots hshorthand _ => exact (Derives.descendant hdots hshorthand).closes.complete
  | descendantBracketed hdots hbracketed _ =>
    exact (Derives.descendantBracketed hdots hbracketed).closes.complete
  | moreSegments _ _ ih ih' => exact ih.append ih'
  | childBracketed _ ih | lastSelector _ ih | oneConjunction _ ih | oneBasic _ ih | oneUnary _ ih
  | unaryPath _ ih | unaryCall _ ih | comparableLiteral _ ih | comparablePath _ _ ih
  | comparableCall _ _ ih | lastArgument _ ih | literalArgument _ ih | logicalArgument _ ih =>
    exact ih
  | member hkind | anyMember hkind | wildcard hkind => exact .singleton (by rw [hkind]; decide)
  | bracketed _ _ hclosing _ | group _ _ _ hclosing _ =>
    exact Complete.concat (by rw [hclosing]; decide) (_ :: _)
  | moreSelectors _ hcomma _ ih ih' | moreArguments _ hcomma _ ih ih' =>
    exact ih.append (ih'.cons (by rw [hcomma]; decide))
  | name hkind _ => exact .singleton (by rcases hkind with hkind | hkind <;> rw [hkind] <;> decide)
  | index hindex => exact .singleton (by rw [hindex.kind]; decide)
  | slice hstart hcolon hstop hstride =>
    have hafter := hstop.complete.append hstride.complete
    exact hstart.complete.append (hafter.cons (by rw [hcolon]; decide))
  | filter hmark _ _ ih => exact ih.cons (by rw [hmark]; decide)
  | disjunction _ hor _ _ _ ih ih' => exact ih.append (ih'.cons (by rw [hor]; decide))
  | conjunction _ hand _ _ _ ih ih' => exact ih.append (ih'.cons (by rw [hand]; decide))
  | comparison _ hoperator _ ih ih' =>
    refine ih.append (ih'.cons ?_)
    intro hmem
    simp only [List.mem_cons, List.not_mem_nil, or_false] at hmem
    rcases hmem with h | h | h <;> rw [h] at hoperator <;> cases hoperator
  | negation hnot _ _ ih => exact ih.cons (by rw [hnot]; decide)
  | literal hwrites => exact hwrites.complete
  | emptyCall _ _ hclosing _ => exact Complete.concat (by rw [hclosing]; decide) [_, _]
  | call _ _ _ hclosing _ _ => exact Complete.concat (by rw [hclosing]; decide) (_ :: _ :: _)

end Grammar

/-! ### The texts of expressions -/

variable {dialect : Dialect} {query text a b : Text} {e left right : Expr}

/-- The query with the text alone in a filter. -/
def filterText (text : Text) : Text := "$[?" ++ text ++ "]"

/-- The text is that of the expression, where it stands alone in a filter. -/
def Filters (dialect : Dialect) (text : Text) (e : Expr) : Prop :=
  ∃ opening mark : Token,
    Query.ofText dialect (filterText text) = .ok [.child opening [.filter mark e]]

theorem Grammar.Derives.exists_filter {ts : List Token} {opening mark : Token}
    (h : Derives dialect .query ts [.child opening [.filter mark e]]) :
    ∃ root us closing, ts = [root, opening, mark] ++ (us ++ [closing]) ∧
      closing.kind = .closeSquare ∧ Derives dialect .disjunction us e ∧
        IsTest dialect.signatures e := by
  cases h with
  | query hroot hsegments =>
  cases hsegments with
  | moreSegments hsegment hrest =>
  cases hrest with
  | noSegments =>
  rw [List.append_nil]
  cases hsegment with
  | child hdot hshorthand => cases hshorthand
  | childBracketed hbracketed =>
  cases hbracketed with
  | bracketed hopening hselectors hclosing =>
  cases hselectors with
  | moreSelectors _ _ hmore => cases hmore
  | lastSelector hselector =>
  cases hselector with
  | filter hmark hdisjunction htest => exact ⟨_, _, _, rfl, hclosing, hdisjunction, htest⟩

theorem filters_iff : Filters dialect text e ↔
    ∃ ts closing final,
      Tokenizes (filterText text) none 3 (text.toList ++ [(']' : CodePoint)])
        (ts ++ [closing, final]) ∧
      closing.kind = .closeSquare ∧ Grammar.Derives dialect .disjunction ts e ∧
        Grammar.IsTest dialect.signatures e := by
  have htext : (filterText text).toList =
      ("$" : Text).toList ++ (("[" : Text).toList ++ ("?" : Text).toList) ++
        (text.toList ++ [(']' : CodePoint)]) := by
    rw [filterText, Text.toList_append, Text.toList_append, List.append_assoc]
    rfl
  have hlexes : Lexes (("$" : Text).toList ++ (("[" : Text).toList ++ ("?" : Text).toList))
      [(.root, "$"), (.openSquare, "["), (.filter, "?")] (text.toList ++ [(']' : CodePoint)]) := by
    refine Lexes.append (lexes_symbol rfl (by decide) (by decide)) ?_
    refine Lexes.append (lexes_symbol rfl (by decide) (by decide)) ?_
    exact lexes_symbol rfl (by decide) (by decide)
  obtain ⟨before, hshapes, htokens⟩ := hlexes.tokenizes_iff (filterText text) 0
  simp only [List.map_eq_cons_iff, List.map_eq_nil_iff] at hshapes
  obtain ⟨root, _, rfl, hroot, opening, _, rfl, hopening, mark, _, rfl, hmark, rfl⟩ := hshapes
  constructor
  · rintro ⟨opening', mark', h⟩
    obtain ⟨ts, final, hts, hderives⟩ := Grammar.ofText_eq_ok_iff.1 h
    obtain ⟨root', us, closing, rfl, hclosing, hdisjunction, htest⟩ := hderives.exists_filter
    obtain ⟨-, hts⟩ := tokenizes_of_ofQuery hts
    rw [htext, htokens] at hts
    obtain ⟨vs, heq, hvs⟩ := hts
    rw [List.append_assoc] at heq
    obtain ⟨-, rfl⟩ := List.append_inj heq rfl
    rw [List.append_assoc] at hvs
    exact ⟨us, closing, final, hvs, hclosing, hdisjunction, htest⟩
  · rintro ⟨ts, closing, final, hts, hclosing, hdisjunction, htest⟩
    have hall := (htokens _).2 ⟨_, rfl, hts⟩
    rw [← htext] at hall
    refine ⟨opening, mark, Grammar.ofText_eq_ok_iff.2
      ⟨[root, opening, mark] ++ (ts ++ [closing]), final, ?_, ?_⟩⟩
    · rw [List.append_assoc, List.append_assoc]
      exact ofQuery_of_tokenizes (by rw [htext]; rfl) (by decide) hall
    · have hselector := Grammar.Derives.filter (Prod.mk.inj hmark).1 hdisjunction htest
      have hbracketed :=
        Grammar.Derives.bracketed (Prod.mk.inj hopening).1 (.lastSelector hselector) hclosing
      have hsegments := Grammar.Derives.moreSegments (.childBracketed hbracketed) .noSegments
      rw [List.append_nil] at hsegments
      exact .query (Prod.mk.inj hroot).1 hsegments

/-- In parentheses the text comes to a group, which can be an operand of any connective. -/
theorem Filters.enclosed (h : Filters dialect text e) {offset : Nat} (hoffset : 2 ≤ offset)
    {more : List CodePoint} {vs : List Token}
    (hvs : Tokenizes query none (offset + 1 + text.toList.length + 1) more vs) :
    ∃ ts, Grammar.Derives dialect .unary ts (e.moved query (offset - 2)) ∧
      Tokenizes query none offset
        (("(" : Text).toList ++ (text.toList ++ ((")" : Text).toList ++ more))) (ts ++ vs) := by
  obtain ⟨ts, closing, final, hts, hclosing, hdisjunction, htest⟩ := filters_iff.1 h
  have hmoved : Grammar.Derives dialect .disjunction _ (e.moved query (offset - 2)) :=
    hdisjunction.moved
  have hthere := hts.moved query (offset - 2)
  have hplace : 3 + (offset - 2) = offset + 1 := by omega
  rw [hplace, List.map_append, List.map_cons, List.map_singleton] at hthere
  have hclose : Lexes (")" : Text).toList [(.closeParen, ")")] more :=
    lexes_symbol rfl (by decide) (by decide)
  obtain ⟨last, hlast, hend⟩ := hclose.exists_token hvs
  have hinner := hthere.exchange_closing hclosing hmoved.complete hend
  have hopen : Lexes ("(" : Text).toList [(.openParen, "(")]
    (text.toList ++ ((")" : Text).toList ++ more)) :=
    lexes_symbol rfl (by decide) (by decide)
  obtain ⟨first, hfirst, hall⟩ := hopen.exists_token hinner
  refine ⟨_, .group hfirst hmoved htest.moved hlast, ?_⟩
  rw [List.cons_append, List.append_assoc]
  exact hall

theorem exists_closing (query : Text) (offset : Nat) : ∃ closing final : Token,
    Tokenizes query none offset [']'] [closing, final] ∧ closing.kind = .closeSquare := by
  have hlexes : Lexes ("]" : Text).toList [(.closeSquare, "]")] [] :=
    lexes_symbol rfl (by decide) (by decide)
  have hend : Tokenizes query none (offset + 1) []
      [⟨.endOfQuery, "", offset + 1, offset + 1, query⟩] := .done
  obtain ⟨closing, hclosing, htokens⟩ := hlexes.exists_token hend
  exact ⟨closing, _, htokens, hclosing⟩

theorem Filters.isTest (h : Filters dialect text e) : Grammar.IsTest dialect.signatures e := by
  obtain ⟨_, _, _, _, _, _, htest⟩ := filters_iff.1 h
  exact htest

theorem Filters.negation (h : Filters dialect text e) :
    ∃ (not : Token) (query : Text) (distance : Nat),
      Filters dialect ("!(" ++ text ++ ")") (.negation not (e.moved query distance)) := by
  let query := filterText ("!(" ++ text ++ ")")
  obtain ⟨closing, final, hend, hclosing⟩ :=
    exists_closing query (4 + 1 + text.toList.length + 1)
  obtain ⟨ts, hunary, hgroup⟩ := h.enclosed (by decide) hend
  have hlexes : Lexes ("!" : Text).toList [(.negation, "!")]
      (("(" : Text).toList ++ (text.toList ++ ((")" : Text).toList ++ [(']' : CodePoint)]))) :=
    lexes_negation ⟨'(', _, rfl, by decide, by decide⟩
  obtain ⟨not, hnot, hall⟩ := hlexes.exists_token hgroup
  refine ⟨not, query, 2, filters_iff.2 ⟨not :: ts, closing, final, ?_, hclosing, ?_, ?_⟩⟩
  · simpa using hall
  · exact .oneConjunction (.oneBasic (.oneUnary (.negation hnot hunary h.isTest.moved)))
  · rintro ⟨⟩

/-- Two texts in parentheses with an operator between them, and blanks around it. -/
theorem Filters.joined (ha : Filters dialect a left) (hb : Filters dialect b right)
    (query symbol : Text) {kind : TokenKind}
    (hsymbol : ∀ rest, symbol? (symbol.toList ++ (' ' : CodePoint) :: rest) =
      some ⟨kind, symbol.toList.length⟩)
    (hblank : symbol.toList.head?.any Text.isBlank = false)
    (hkind : kind ∉ [TokenKind.dot, .doubleDot, .singleQuoted, .doubleQuoted]) :
    ∃ (ts us : List Token) (operator closing final : Token) (distance distance' : Nat),
      Tokenizes query none 3 (("(" ++ a ++ ") " ++ symbol ++ " (" ++ b ++ ")").toList ++
        [(']' : CodePoint)])
        (ts ++ operator :: us ++ [closing, final]) ∧
      closing.kind = .closeSquare ∧ operator.kind = kind ∧
      Grammar.Derives dialect .unary ts (left.moved query distance) ∧
      Grammar.Derives dialect .unary us (right.moved query distance') := by
  let behind := 3 + 1 + a.toList.length + 1
  let offset := behind + ((' ' : CodePoint) :: symbol.toList).length + [' '].length
  obtain ⟨closing, final, hend, hclosing⟩ := exists_closing query (offset + 1 + b.toList.length + 1)
  obtain ⟨us, hus, hright⟩ := hb.enclosed (by omega) hend
  have hblanks : ∀ c ∈ [(' ' : CodePoint)], Text.isBlank c = true := List.forall_mem_singleton.2 rfl
  have hspaced : Tokenizes query none (behind + ((' ' : CodePoint) :: symbol.toList).length)
      ([(' ' : CodePoint)] ++ ('(' : CodePoint) ::
        (b.toList ++ ((")" : Text).toList ++ [(']' : CodePoint)]))) (us ++ [closing, final]) :=
    hright.behind_blanks hblanks (by decide)
  obtain ⟨operator, hoperator, hmiddle⟩ :=
    (lexes_operator (hsymbol _) hblank hkind).exists_token hspaced
  obtain ⟨ts, hts, hall⟩ := ha.enclosed (by decide) hmiddle
  refine ⟨ts, us, operator, closing, final, _, _, ?_, hclosing, hoperator, hts, hus⟩
  simpa using hall

theorem Filters.conjunction (ha : Filters dialect a left) (hb : Filters dialect b right) :
    ∃ (and : Token) (query : Text) (distance distance' : Nat),
      Filters dialect ("(" ++ a ++ ") && (" ++ b ++ ")")
        (.conjunction and (left.moved query distance) (right.moved query distance')) := by
  let query := filterText ("(" ++ a ++ ") && (" ++ b ++ ")")
  obtain ⟨ts, us, and, closing, final, distance, distance', htokens, hclosing, hand, hts, hus⟩ :=
    ha.joined hb query "&&" (fun _ => rfl) (by decide) (by decide)
  refine ⟨and, query, distance, distance',
    filters_iff.2 ⟨ts ++ and :: us, closing, final, ?_, hclosing, ?_, ?_⟩⟩
  · simpa using htokens
  · exact .oneConjunction (.conjunction (.oneBasic (.oneUnary hts)) hand (.oneUnary hus)
      ha.isTest.moved hb.isTest.moved)
  · rintro ⟨⟩

theorem Filters.disjunction (ha : Filters dialect a left) (hb : Filters dialect b right) :
    ∃ (or : Token) (query : Text) (distance distance' : Nat),
      Filters dialect ("(" ++ a ++ ") || (" ++ b ++ ")")
        (.disjunction or (left.moved query distance) (right.moved query distance')) := by
  let query := filterText ("(" ++ a ++ ") || (" ++ b ++ ")")
  obtain ⟨ts, us, or, closing, final, distance, distance', htokens, hclosing, hor, hts, hus⟩ :=
    ha.joined hb query "||" (fun _ => rfl) (by decide) (by decide)
  refine ⟨or, query, distance, distance',
    filters_iff.2 ⟨ts ++ or :: us, closing, final, ?_, hclosing, ?_, ?_⟩⟩
  · simpa using htokens
  · exact .disjunction (.oneConjunction (.oneBasic (.oneUnary hts))) hor (.oneBasic (.oneUnary hus))
      ha.isTest.moved hb.isTest.moved
  · rintro ⟨⟩

end JsonPath
