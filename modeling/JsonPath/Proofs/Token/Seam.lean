import JsonPath.Proofs.Token.Lookahead

/-!
# Texts one after the other

More text after a text changes no token of it, if the text ends with a bracket, a name or another
token that nothing can be added to, and no name goes on after it. Inside the text the lexer never
looks further than the text itself goes: what stands after a lexeme comes to tokens as well, so
there is enough of it to tell where the lexeme ends.
-/

namespace JsonPath

/-- The token as it is in another query, with more text before it. -/
def Token.moved (query : Text) (distance : Nat) (token : Token) : Token :=
  { token with start := token.start + distance, stop := token.stop + distance, query }

namespace Lexer

open Numeral (IsSettled)

/-- What the lexeme leaves to be expected: after dots a name, and nothing in particular else. -/
def Lexeme.dots? (lexeme : Lexeme) : Option TokenKind :=
  if lexeme.kind = .dot ∨ lexeme.kind = .doubleDot then some lexeme.kind else none

/-- The text of a query from an offset on comes to the tokens, the end token among them. -/
inductive Tokenizes (query : Text) : Option TokenKind → Nat → List CodePoint → List Token → Prop
  | done {offset : Nat} : Tokenizes query none offset [] [⟨.endOfQuery, "", offset, offset, query⟩]
  | bracket {dots : TokenKind} {offset : Nat} {cs : List CodePoint} {tokens : List Token} :
      shorthand? dots cs = .ok none → Tokenizes query none offset cs tokens →
      Tokenizes query (some dots) offset cs tokens
  | shorthand {dots : TokenKind} {offset : Nat} {cs : List CodePoint} {lexeme : Lexeme}
      {tokens : List Token} :
      shorthand? dots cs = .ok (some lexeme) →
      Tokenizes query none (offset + lexeme.length) (cs.drop lexeme.length) tokens →
      Tokenizes query (some dots) offset cs (lexeme.token query offset cs :: tokens)
  | lexeme {offset : Nat} {blanks : List CodePoint} {c : CodePoint} {cs : List CodePoint}
      {lexeme : Lexeme}
      {tokens : List Token} :
      (∀ b ∈ blanks, Text.isBlank b = true) → Text.isBlank c = false →
      lexeme? (c :: cs) = .ok (some lexeme) →
      Tokenizes query lexeme.dots? (offset + blanks.length + lexeme.length)
        ((c :: cs).drop lexeme.length) tokens →
      Tokenizes query none offset (blanks ++ c :: cs)
        (lexeme.token query (offset + blanks.length) (c :: cs) :: tokens)

variable {query : Text} {dots? : Option TokenKind} {offset : Nat} {cs : List CodePoint}
  {tokens : List Token}

theorem tokensFrom_dots (query : Text) (dots : TokenKind) (offset : Nat) (cs : List CodePoint) :
    tokensFrom query (some dots) offset cs =
      match shorthand? dots cs with
      | .error fault => .error (faultAt query fault offset cs)
      | .ok none => tokensFrom query none offset cs
      | .ok (some lexeme) =>
        (lexeme.token query offset cs :: ·) <$>
          tokensFrom query none (offset + lexeme.length) (cs.drop lexeme.length) := by
  rw [tokensFrom.eq_def]
  dsimp only
  split
  next heq => rw [heq]
  next heq => rw [heq]
  next heq =>
    rw [heq]
    dsimp only
    cases tokensFrom _ _ _ _ <;> rfl

theorem token_append {lexeme : Lexeme} (h : lexeme.length ≤ cs.length) (query : Text) (offset : Nat)
    (more : List CodePoint) :
    lexeme.token query offset (cs ++ more) = lexeme.token query offset cs := by
  unfold Lexeme.token
  rw [List.take_append_of_le_length h]

theorem tokenizes_of_tokensFrom (h : tokensFrom query dots? offset cs = .ok tokens) :
    Tokenizes query dots? offset cs tokens := by
  fun_induction tokensFrom query dots? offset cs generalizing tokens with
  | case1 | case5 | case6 | case7 => cases h
  | case2 offset cs dots hnone ih => exact .bracket hnone (ih h)
  | case3 offset cs dots lexeme hlexeme _ ih =>
    obtain ⟨more, hmore, heq⟩ := Parser.bind_eq_ok_iff.1 h
    cases heq
    exact .shorthand hlexeme (ih hmore)
  | case4 offset cs hempty =>
    cases h
    rw [List.isEmpty_iff.1 hempty]
    exact .done
  | case8 offset cs _ blanks rest start c hc lexeme hlexeme _ dots? =>
    rename_i ih
    obtain ⟨more, hmore, heq⟩ := Parser.bind_eq_ok_iff.1 h
    cases heq
    have hdrop : rest = cs.dropWhile Text.isBlank := drop_takeWhile _ cs
    have hblank := List.head?_dropWhile_not Text.isBlank cs
    rw [← hdrop, hc] at hblank
    obtain ⟨cs', hrest⟩ := List.head?_eq_some_iff.1 hc
    have hcs : cs = cs.takeWhile Text.isBlank ++ c :: cs' := by
      rw [← hrest, hdrop, List.takeWhile_append_dropWhile]
    rw [hrest] at hlexeme ih hmore ⊢
    rw [hcs]
    exact .lexeme (List.all_eq_true.1 List.all_takeWhile) hblank hlexeme (ih hmore)

theorem tokensFrom_of_tokenizes (h : Tokenizes query dots? offset cs tokens) :
    tokensFrom query dots? offset cs = .ok tokens := by
  induction h with
  | done => exact tokensFrom.eq_def ..
  | bracket hnone _ ih =>
    rw [tokensFrom_dots, hnone]
    exact ih
  | shorthand hlexeme _ ih =>
    rw [tokensFrom_dots, hlexeme]
    exact congrArg (Functor.map _) ih
  | lexeme hblanks hc hlexeme _ ih =>
    rw [tokensFrom_eq _ _ hblanks hc, hlexeme]
    exact congrArg (Functor.map _) ih

namespace Tokenizes

/-- The text comes to the same tokens at another place of another query. -/
theorem moved (h : Tokenizes query dots? offset cs tokens) (query' : Text) (distance : Nat) :
    Tokenizes query' dots? (offset + distance) cs (tokens.map (Token.moved query' distance)) := by
  have htoken (lexeme : Lexeme) (offset : Nat) (cs : List CodePoint) :
      (lexeme.token query offset cs).moved query' distance =
        lexeme.token query' (offset + distance) cs := by
    unfold Token.moved Lexeme.token
    rw [Nat.add_right_comm]
  induction h with
  | done => exact .done
  | bracket hnone _ ih => exact .bracket hnone ih
  | shorthand hlexeme _ ih =>
    rw [List.map_cons, htoken]
    rw [Nat.add_right_comm] at ih
    exact .shorthand hlexeme ih
  | lexeme hblanks hc hlexeme _ ih =>
    rw [List.map_cons, htoken, Nat.add_right_comm]
    rw [Nat.add_right_comm, Nat.add_right_comm _ _ distance] at ih
    exact .lexeme hblanks hc hlexeme ih

theorem query_eq (h : Tokenizes query dots? offset cs tokens) : ∀ t ∈ tokens, t.query = query := by
  induction h with
  | done => exact List.forall_mem_singleton.2 rfl
  | bracket _ _ ih => exact ih
  | shorthand _ _ ih | lexeme _ _ _ _ ih => exact List.forall_mem_cons.2 ⟨rfl, ih⟩

theorem exists_final (h : Tokenizes query dots? offset cs tokens) :
    ∃ ts final, tokens = ts ++ [final] := by
  obtain ⟨ts, final, heq, -⟩ := scanned_of_tokensFrom (tokensFrom_of_tokenizes h)
  exact ⟨ts, final, heq⟩

/-- What comes to tokens shows where a number before it ends. -/
theorem isSettled (h : Tokenizes query none offset cs tokens) (hcs : cs ≠ []) : IsSettled cs := by
  cases h with
  | done => exact absurd rfl hcs
  | @lexeme _ blanks c more lexeme _ hblanks _ hlexeme hnext =>
    cases blanks with
    | cons b blanks =>
      refine .cons ?_ _
      have hb := hblanks b List.mem_cons_self
      refine ⟨?_, ?_, ?_⟩ <;> rintro rfl <;> exact absurd hb (by decide)
    | nil =>
      refine ⟨hcs, fun hdot => ?_, fun e rest heq he => ?_⟩
      · cases hdot
        have hdots : lexeme = ⟨.dot, 1⟩ := by
          have hlexeme' : lexeme? ['.'] = .ok (some ⟨.dot, 1⟩) := rfl
          cases hlexeme.symm.trans hlexeme'
          rfl
        rw [hdots] at hnext
        cases hnext with
        | bracket hnone _ => cases hnone
        | shorthand hsome _ => cases hsome
      · obtain ⟨rfl, rfl⟩ := List.cons.inj heq
        have hfunction := function?_of_mark he hlexeme
        cases more with
        | nil => simp [function?] at hfunction
        | cons d more =>
          refine ⟨d, rfl, ?_⟩
          by_cases hd : isFunctionChar d = true
          · constructor
            · rintro rfl
              exact absurd hd (by decide)
            · rintro rfl
              exact absurd hd (by decide)
          · have hcall : (isFunctionFirst c = true ∧ d = '(') ∧ ⟨.function, 1⟩ = lexeme := by
              simpa [function?, hd] using hfunction
            rw [hcall.1.2]
            decide

/-- Where no text is left, there is nothing but the end token. -/
theorem of_nil (h : Tokenizes query dots? offset [] tokens) : tokens.length = 1 := by
  generalize hcs : [] = cs at h
  cases h with
  | done => rfl
  | bracket hnone _ =>
    subst hcs
    cases hnone
  | shorthand hsome _ =>
    subst hcs
    cases hsome
  | lexeme => simp at hcs

/-- The tokens after a first one. Where no text is left for them, the first ends the query. -/
theorem cons_eq_append {token final : Token} {ts : List Token}
    (h : Tokenizes query dots? offset cs tokens) (heq : token :: tokens = ts ++ [final])
    (hlast : ∀ t ∈ ts.getLast?, t.kind.endsQuery = true) :
    ∃ us, ts = token :: us ∧ tokens = us ++ [final] ∧
      (∀ t ∈ us.getLast?, t.kind.endsQuery = true) ∧ (cs = [] → token.kind.endsQuery = true) := by
  obtain ⟨us, last, rfl⟩ := h.exists_final
  obtain ⟨rfl, hfinal⟩ := List.append_inj' (List.cons_append.trans heq) rfl
  cases hfinal
  refine ⟨us, rfl, rfl, fun t ht => ?_, ?_⟩
  · apply hlast
    rw [List.getLast?_cons, Option.mem_def.1 ht]
    rfl
  · rintro rfl
    have hus : us = [] := by simpa using h.of_nil
    exact hlast token (by rw [hus]; rfl)

/-- A text that can end a query comes to the same tokens with more text after it, if that does not
start with a character that names can have. -/
theorem append {ts us : List Token} {final : Token} {more : List CodePoint}
    (h : Tokenizes query dots? offset cs (ts ++ [final]))
    (hlast : ∀ t ∈ ts.getLast?, t.kind.endsQuery = true)
    (hmore : ∀ c ∈ more.head?, isNameChar c = false)
    (hus : Tokenizes query none (offset + cs.length) more us) :
    Tokenizes query dots? offset (cs ++ more) (ts ++ us) := by
  generalize htokens : ts ++ [final] = tokens at h
  induction h generalizing ts with
  | done =>
    have heq : ts ++ [final] = [] ++ [_] := htokens
    obtain ⟨rfl, -⟩ := List.append_inj' heq rfl
    exact hus
  -- A name after dots can be the last lexeme, and would go on with more of its characters.
  | bracket hnone _ ih => exact .bracket (shorthand?_append hnone hmore) (ih hlast hus htokens)
  | @shorthand dots offset cs lexeme tokens hlexeme hnext ih =>
    obtain ⟨vs, rfl, rfl, hvs, -⟩ := hnext.cons_eq_append htokens.symm hlast
    have hle : lexeme.length ≤ cs.length := (within_of_shorthand? hlexeme).2
    have hoffset : offset + lexeme.length + (cs.drop lexeme.length).length =
        offset + cs.length := by
      rw [List.length_drop]
      omega
    rw [← hoffset] at hus
    rw [List.cons_append, ← token_append hle query offset more]
    refine .shorthand (shorthand?_append hlexeme hmore) ?_
    rw [List.drop_append_of_le_length hle]
    exact ih hvs hus rfl
  | @lexeme offset blanks c cs lexeme tokens hblanks hc hlexeme hnext ih =>
    obtain ⟨vs, rfl, rfl, hvs, hend⟩ := hnext.cons_eq_append htokens.symm hlast
    have hle : lexeme.length ≤ (c :: cs).length := (within_of_lexeme? hlexeme).2
    have hoffset : offset + blanks.length + lexeme.length + ((c :: cs).drop lexeme.length).length =
        offset + (blanks ++ c :: cs).length := by
      rw [List.length_drop, List.length_append]
      omega
    have hsame : lexeme? (c :: cs ++ more) = .ok (some lexeme) := by
      -- A number cannot end a query, so a token follows it, and shows where it ends.
      refine lexeme?_append hlexeme hend (fun hnumber => ?_) more
      have hnone : lexeme.dots? = none := by
        unfold Lexeme.dots?
        rcases hnumber with hkind | hkind <;> rw [hkind] <;> rfl
      rw [hnone] at hnext
      refine hnext.isSettled fun hnil => ?_
      have hends : lexeme.kind.endsQuery = true := hend hnil
      rcases hnumber with hkind | hkind <;> rw [hkind] at hends <;> cases hends
    rw [← hoffset] at hus
    rw [List.cons_append, ← token_append hle _ _ more, List.append_assoc, List.cons_append]
    refine .lexeme hblanks hc hsame ?_
    rw [← List.cons_append, List.drop_append_of_le_length hle]
    exact ih hvs hus rfl

end Tokenizes

end Lexer

end JsonPath
