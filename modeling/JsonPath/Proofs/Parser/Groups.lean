import Mathlib
import JsonPath.Environment
import JsonPath.Proofs.Parser.Nesting

/-!
# Expressions in parentheses

An operand of a comparison is never in parentheses. An argument may be, though in the tree nothing
is left of them. As an argument for a parameter of type value or nodes it is then a query or a call
that lists nodes; a literal or a call for a value is not taken so.
-/

namespace JsonPath

namespace Grammar

variable {dialect : Dialect} {before after front back ts us : List Token} {token : Token}

/-- What a derivation says about a token and those around it: the name of a function starts a call,
and a comparison has its operands on both sides. -/
structure Stands (dialect : Dialect) (before : List Token) (token : Token) (after : List Token) :
    Prop where
  call : token.kind = .function → ∃ ts rest e, after = ts ++ rest ∧
    Derives dialect .call (token :: ts) e
  comparison : ∀ comparison, Parser.comparison? token.kind = some comparison →
    ∃ front us vs rest left right, before = front ++ us ∧ after = vs ++ rest ∧
      Derives dialect .comparable us left ∧ Derives dialect .comparable vs right

theorem Stands.widen (h : Stands dialect before token after) (front back : List Token) :
    Stands dialect (front ++ before) token (after ++ back) where
  call hkind := by
    obtain ⟨ts, rest, e, rfl, hcall⟩ := h.call hkind
    exact ⟨ts, rest ++ back, e, List.append_assoc _ _ _, hcall⟩
  comparison operator hoperator := by
    obtain ⟨front', us, vs, rest, left, right, rfl, rfl, hleft, hright⟩ :=
      h.comparison operator hoperator
    exact ⟨front ++ front', us, vs, rest ++ back, left, right, (List.append_assoc _ _ _).symm,
      List.append_assoc _ _ _, hleft, hright⟩

theorem Stands.of_kind (hfunction : token.kind ≠ .function)
    (hcomparison : Parser.comparison? token.kind = none) : Stands dialect before token after where
  call hkind := absurd hkind hfunction
  comparison operator hoperator := by
    rw [hcomparison] at hoperator
    cases hoperator

/-- All tokens stand as the derivation says. -/
def Located (dialect : Dialect) (ts : List Token) : Prop :=
  ∀ before token after, ts = before ++ token :: after → Stands dialect before token after

theorem Located.nil : Located dialect [] := by simp [Located]

/-- What is between two located parts stands if it does so with all of them around it. -/
theorem Located.infix (h : Located dialect ts) (htoken : Stands dialect ts token us)
    (h' : Located dialect us) : Located dialect (ts ++ token :: us) := by
  intro before t after heq
  rcases List.append_eq_append_iff.1 heq with ⟨more, rfl, hmore⟩ | ⟨more, rfl, hmore⟩
  · cases more with
    | nil =>
      obtain ⟨rfl, rfl⟩ := List.cons.inj hmore
      rwa [List.append_nil]
    | cons head more =>
      obtain ⟨rfl, rfl⟩ := List.cons.inj hmore
      simpa using (h' more t after rfl).widen (ts ++ [token]) []
  · cases more with
    | nil =>
      obtain ⟨rfl, rfl⟩ := List.cons.inj hmore
      rwa [List.append_nil] at htoken
    | cons head more =>
      obtain ⟨rfl, rfl⟩ := List.cons.inj hmore
      simpa using (h before t more rfl).widen [] (token :: us)

theorem Located.cons (htoken : Stands dialect [] token us) (h : Located dialect us) :
    Located dialect (token :: us) := Located.nil.infix htoken h

theorem Located.append (h : Located dialect ts) (h' : Located dialect us) :
    Located dialect (ts ++ us) := by
  intro before t after heq
  rcases List.append_eq_append_iff.1 heq with ⟨more, rfl, hmore⟩ | ⟨more, rfl, hmore⟩
  · simpa using (h' more t after hmore).widen ts []
  · cases more with
    | nil => simpa using (h' [] t after hmore.symm).widen before []
    | cons head more =>
      obtain ⟨rfl, rfl⟩ := List.cons.inj hmore
      simpa using (h before t more rfl).widen [] us

/-- The kinds of tokens of which nothing is said. -/
def IsSilent (token : Token) : Prop :=
  token.kind ≠ .function ∧ Parser.comparison? token.kind = none

theorem IsSilent.stands (h : IsSilent token) : Stands dialect before token after :=
  .of_kind h.1 h.2

theorem IsSilent.located (h : IsSilent token) : Located dialect [token] :=
  .cons h.stands .nil

theorem Index.isSilent {i : Int} (h : Index dialect token i) : IsSilent token := by
  simp [IsSilent, h.kind, Parser.comparison?]

theorem Bound.located {i? : Option Int} (h : Bound dialect ts i?) : Located dialect ts := by
  cases h with
  | absent => exact .nil
  | present h => exact h.isSilent.located

theorem Stride.located {i? : Option Int} (h : Stride dialect ts i?) : Located dialect ts := by
  cases h with
  | absent => exact .nil
  | present hcolon h =>
    exact .cons (IsSilent.stands (by simp [IsSilent, hcolon, Parser.comparison?])) h.located

theorem Writes.isSilent {literal : Literal} (h : Writes token literal) : IsSilent token := by
  cases h with
  | string hkind => rcases hkind with hkind | hkind <;> simp [IsSilent, hkind, Parser.comparison?]
  | integer hkind | decimal hkind | true hkind | false hkind | null hkind =>
    simp [IsSilent, hkind, Parser.comparison?]

/-- In what is derived all tokens stand as the derivation says. -/
theorem Derives.located {n : Nonterminal} {tree : n.Tree} (h : Derives dialect n ts tree) :
    Located dialect ts := by
  have hsilent {token : Token} {kind : TokenKind} {ts us : List Token} (hkind : token.kind = kind)
      (h : kind ≠ .function ∧ Parser.comparison? kind = none) : Stands dialect ts token us :=
    .of_kind (hkind ▸ h.1) (hkind ▸ h.2)
  induction h with
  | noSegments => exact .nil
  | query hkind _ ih | child hkind _ ih | descendant hkind _ ih | descendantBracketed hkind _ ih
  | filter hkind _ _ ih | negation hkind _ _ ih | absolute hkind _ ih | relative hkind _ ih =>
    exact .cons (hsilent hkind (by decide)) ih
  | member hkind | anyMember hkind | wildcard hkind =>
    exact .cons (hsilent hkind (by decide)) .nil
  | name hkind =>
    rcases hkind with hkind | hkind <;> exact .cons (hsilent hkind (by decide)) .nil
  | index h => exact h.isSilent.located
  | literal h => exact h.isSilent.located
  | moreSegments _ _ ih ihMore => exact ih.append ihMore
  | bracketed hopening _ hclosing ih =>
    exact .cons (hsilent hopening (by decide))
      (ih.append (.cons (hsilent hclosing (by decide)) .nil))
  | group hopening _ _ hclosing ih =>
    exact .cons (hsilent hopening (by decide))
      (ih.append (.cons (hsilent hclosing (by decide)) .nil))
  | moreSelectors _ hkind _ ih ihMore | moreArguments _ hkind _ ih ihMore
  | disjunction _ hkind _ _ _ ih ihMore | conjunction _ hkind _ _ _ ih ihMore =>
    exact ih.infix (hsilent hkind (by decide)) ihMore
  | slice hstart hcolon hstop hstride =>
    exact hstart.located.infix (hsilent hcolon (by decide)) (hstop.located.append hstride.located)
  | @comparison us vs operator comparison left right hleft hoperator hright ih ihRight =>
    refine ih.infix ⟨fun hkind => ?_, fun _ _ => ?_⟩ ihRight
    · rw [hkind] at hoperator
      cases hoperator
    · exact ⟨[], us, vs, [], left, right, rfl, (List.append_nil vs).symm, hleft, hright⟩
  | @emptyCall function opening closing hfunction hopening hclosing hdeclared =>
    have hcall := Derives.emptyCall hfunction hopening hclosing hdeclared
    refine .cons ⟨fun _ => ⟨[opening, closing], [], _, rfl, hcall⟩, fun _ hoperator => ?_⟩
      (.cons (hsilent hopening (by decide)) (.cons (hsilent hclosing (by decide)) .nil))
    rw [hfunction] at hoperator
    cases hoperator
  | @call function opening closing us given hfunction hopening hgiven hclosing hdeclared ih =>
    have hcall := Derives.call hfunction hopening hgiven hclosing hdeclared
    refine .cons ⟨fun _ => ⟨opening :: (us ++ [closing]), [], _, by simp, hcall⟩,
      fun _ hoperator => ?_⟩ (.cons (hsilent hopening (by decide))
        (ih.append (.cons (hsilent hclosing (by decide)) .nil)))
    rw [hfunction] at hoperator
    cases hoperator
  | childBracketed _ ih | lastSelector _ ih | lastArgument _ ih | oneConjunction _ ih
  | oneBasic _ ih | oneUnary _ ih | unaryPath _ ih | unaryCall _ ih | comparableLiteral _ ih
  | comparablePath _ _ ih | comparableCall _ _ ih | literalArgument _ ih
  | logicalArgument _ ih => exact ih

/-! ### Groups as arguments -/

variable {inner : List Token} {e : Expr}

/-- An operator in what is derived is not part of a group. -/
theorem Derives.not_isGroup_infix {n : Nonterminal} {tree : n.Tree} {us vs : List Token}
    {operator : Token} (h : Derives dialect n us tree)
    (hn : n ∈ [Nonterminal.disjunction, .conjunction, .comparable])
    (hgroup : IsGroup ts inner) : ts ≠ us ++ operator :: vs := by
  intro heq
  have htotal : nesting us = 0 := by
    have hnested := h.isNested
    simp only [List.mem_cons, List.not_mem_nil, or_false] at hn
    rcases hn with rfl | rfl | rfl <;> exact hnested.total
  obtain ⟨t, more, hus, -⟩ := h.first_mem (by rintro rfl; simp at hn)
  exact hgroup.not_append htotal (by simp [hus]) heq

/-- What stands in the parentheses of an argument is a disjunction with its tree. -/
theorem Derives.inner_of_isGroup (h : Derives dialect .argument ts e) (hgroup : IsGroup ts inner) :
    Derives dialect .disjunction inner e ∧ IsTest dialect.signatures e := by
  obtain ⟨opening, closing, hts, hopening, -⟩ := id hgroup
  cases h with
  | literalArgument h =>
    cases h
    simp at hts
  | logicalArgument h =>
    cases h with
    | disjunction hleft => exact absurd rfl (hleft.not_isGroup_infix (by simp) hgroup)
    | oneConjunction h =>
      cases h with
      | conjunction hleft => exact absurd rfl (hleft.not_isGroup_infix (by simp) hgroup)
      | oneBasic h =>
        cases h with
        | comparison hleft => exact absurd rfl (hleft.not_isGroup_infix (by simp) hgroup)
        | oneUnary h =>
          cases h with
          | negation hkind =>
            obtain ⟨rfl, -⟩ := List.cons.inj hts
            simp [hopening] at hkind
          | group _ hinner htest _ =>
            obtain ⟨-, hmore⟩ := List.cons.inj hts
            obtain ⟨rfl, -⟩ := List.append_inj' hmore rfl
            exact ⟨hinner, htest⟩
          | unaryPath h =>
            obtain ⟨t, us, rfl, hmem⟩ := h.first_mem (by decide)
            obtain ⟨rfl, -⟩ := List.cons.inj hts
            exact absurd hopening (ne_of_mem_first hmem (by decide))
          | unaryCall h =>
            obtain ⟨t, us, rfl, hmem⟩ := h.first_mem (by decide)
            obtain ⟨rfl, -⟩ := List.cons.inj hts
            exact absurd hopening (ne_of_mem_first hmem (by decide))

/-- In parentheses, an argument for a value is a singular query, and one for nodes is a query or
lists nodes. -/
theorem Derives.fits_of_isGroup (h : Derives dialect .argument ts e) (hgroup : IsGroup ts inner)
    {parameter : ExprType} (hfits : e.fits dialect.signatures parameter = true) :
    (parameter = .value → e.isSingularQuery = true) ∧
      (parameter = .nodes → e.isQuery = true ∨ e.resultType? dialect.signatures = some .nodes) := by
  obtain ⟨hinner, htest⟩ := h.inner_of_isGroup hgroup
  constructor
  · rintro rfl
    cases e with
    | literal token value => exact absurd ⟨token, value, rfl⟩ hinner.not_isLiteral
    | call => exact absurd (by simpa [Expr.fits, Expr.isSingularQuery] using hfits) htest
    | _ => simpa [Expr.fits, Expr.resultType?] using hfits
  · rintro rfl
    simpa [Expr.fits] using hfits

/-! ### Groups as operands -/

/-- The tokens do not end with a parenthesis. -/
def EndsOpen (ts : List Token) : Prop := ∀ last ∈ ts.getLast?, last.kind ≠ .closeParen

theorem EndsOpen.cons (htoken : token.kind ≠ .closeParen) (h : EndsOpen ts) :
    EndsOpen (token :: ts) := by
  intro last hlast
  rw [List.getLast?_cons, Option.mem_some_iff] at hlast
  subst hlast
  cases hts : ts.getLast? with
  | none => exact htoken
  | some last => exact h last hts

theorem EndsOpen.append (h : EndsOpen ts) (h' : EndsOpen us) : EndsOpen (ts ++ us) := by
  intro last hlast
  rw [List.getLast?_append] at hlast
  rcases Option.or_eq_some_iff.1 hlast with hlast | ⟨-, hlast⟩
  · exact h' last hlast
  · exact h last hlast

/-- The segments of a query do not end with a parenthesis. -/
def Nonterminal.EndsOpen : Nonterminal → List Token → Prop
  | .segments, ts | .segment, ts | .shorthand, ts | .bracketed, ts => Grammar.EndsOpen ts
  | _, _ => True

theorem Derives.endsOpen {n : Nonterminal} {tree : n.Tree} (h : Derives dialect n ts tree) :
    Nonterminal.EndsOpen n ts := by
  induction h with
  | noSegments => exact fun last hlast => by cases hlast
  | moreSegments _ _ ih ihMore => exact EndsOpen.append ih ihMore
  | child hkind _ ih | descendant hkind _ ih | descendantBracketed hkind _ ih =>
    exact EndsOpen.cons (by simp [hkind]) ih
  | childBracketed _ ih => exact ih
  | member hkind | anyMember hkind =>
    exact EndsOpen.cons (by simp [hkind]) (fun last hlast => by cases hlast)
  | bracketed _ _ hclosing =>
    intro last hlast
    rw [← List.cons_append, List.getLast?_concat, Option.mem_some_iff] at hlast
    simp [← hlast, hclosing]
  | _ => trivial

/-- A comparable does not start with a parenthesis. -/
theorem Derives.head_ne_openParen (h : Derives dialect .comparable ts e) :
    ∃ first more, ts = first :: more ∧ first.kind ≠ .openParen := by
  obtain ⟨first, more, rfl, hmem⟩ := h.first_mem (by decide)
  exact ⟨first, more, rfl, ne_of_mem_first hmem (by decide)⟩

/-- Parentheses at the end of a comparable belong to a call. -/
theorem Derives.function_of_ends_isGroup (h : Derives dialect .comparable ts e)
    (hgroup : IsGroup us inner) (heq : front ++ us = before ++ ts) :
    ∃ function ∈ front.getLast?, function.kind = .function := by
  obtain ⟨opening, closing, rfl, hopening, hclosing, hinner⟩ := hgroup
  have hends : ¬ EndsOpen ts := by
    intro hopen
    obtain ⟨first, more, rfl, -⟩ := h.head_ne_openParen
    have hlast := List.getLast?_eq_some_getLast (List.cons_ne_nil first more)
    have hsame := congrArg List.getLast? heq
    rw [← List.cons_append, ← List.append_assoc, List.getLast?_concat, List.getLast?_append,
      hlast, Option.some_or] at hsame
    exact hopen _ hlast (Option.some.inj hsame ▸ hclosing)
  -- The parentheses of a call are found by counting back from the end.
  have hcall {function opening' closing' : Token} {given : List Token}
      (hfunction : function.kind = .function) (hopening' : opening'.kind = .openParen)
      (hgiven : Balanced given) (hts : ts = function :: opening' :: (given ++ [closing'])) :
      ∃ function ∈ front.getLast?, function.kind = .function := by
    have hall : (front ++ opening :: inner) ++ [closing] =
        ((before ++ [function]) ++ opening' :: given) ++ [closing'] := by
      simpa [hts] using heq
    obtain ⟨hbegin, -⟩ := List.append_inj' hall rfl
    rw [hinner.eq_of_opening hgiven hopening hopening' hbegin]
    exact ⟨function, by simp, hfunction⟩
  cases h with
  | comparableLiteral h =>
    cases h with
    | literal h =>
      refine absurd (EndsOpen.cons ?_ fun last hlast => by cases hlast) hends
      exact ne_of_mem_first h.kind_mem (by decide)
  | comparablePath h =>
    cases h with
    | absolute hkind h => exact absurd (EndsOpen.cons (by simp [hkind]) h.endsOpen) hends
    | relative hkind h => exact absurd (EndsOpen.cons (by simp [hkind]) h.endsOpen) hends
  | comparableCall h =>
    cases h with
    | emptyCall hfunction hopening' hclosing' => exact hcall hfunction hopening' .nil rfl
    | call hfunction hopening' hgiven => exact hcall hfunction hopening' hgiven.isNested rfl

/-! ### Calls -/

theorem forall₂_trans {α β γ : Type} {r : α → β → Prop} {s : β → γ → Prop} {as : List α}
    {bs : List β} {cs : List γ} (h : List.Forall₂ r as bs) (h' : List.Forall₂ s bs cs) :
    List.Forall₂ (fun a c => ∃ b, r a b ∧ s b c) as cs := by
  induction h generalizing cs with
  | nil =>
    cases h'
    exact .nil
  | cons hab _ ih =>
    cases h' with
    | cons hbc h' => exact .cons ⟨_, hab, hbc⟩ (ih h')

/-- Derived arguments are the pieces between the commas. -/
theorem Derives.exists_separated {given : List Expr} (h : Derives dialect .arguments ts given) :
    ∃ pieces, Separated ts pieces ∧
      List.Forall₂ (fun piece e => Derives dialect .argument piece e) pieces given := by
  induction given generalizing ts with
  | nil => nomatch h
  | cons e given ih =>
    have hpiece {ts : List Token} (h : Derives dialect .argument ts e) : ts ≠ [] ∧ IsPiece ts := by
      obtain ⟨first, more, rfl, -⟩ := h.first_mem (by decide)
      exact ⟨List.cons_ne_nil first more, h.isNested⟩
    cases h with
    | lastArgument h => exact ⟨_, .last (hpiece h).1 (hpiece h).2, .cons h .nil⟩
    | moreArguments h hcomma hmore =>
      obtain ⟨pieces, hseparated, hall⟩ := ih hmore
      exact ⟨_, .more (hpiece h).1 (hpiece h).2 hcomma hseparated, .cons h hall⟩

/-- The pieces that a call is given are its arguments, each of which fits its parameter. -/
theorem Derives.arguments_of_separated {function opening closing : Token} {rest : List Token}
    {pieces : List (List Token)} (h : Derives dialect .call (function :: us) e)
    (heq : opening :: (ts ++ closing :: after) = us ++ rest) (hclosing : closing.kind = .closeParen)
    (hpieces : Separated ts pieces) :
    ∃ signature, dialect.signatures function.text = some signature ∧
      List.Forall₂ (fun piece parameter => ∃ e, Derives dialect .argument piece e ∧
        e.fits dialect.signatures parameter = true) pieces signature.parameters := by
  cases h with
  | emptyCall _ _ hclosing' =>
    -- No piece starts with the parenthesis that closes the call.
    obtain ⟨first, more, rfl, hfirst⟩ := hpieces.exists_first
    obtain ⟨rfl, -⟩ := List.cons.inj (List.cons.inj heq).2
    exact absurd (.inr hclosing') hfirst
  | @call _ _ closing' us _ _ _ hgiven hclosing' hdeclared =>
    obtain ⟨signature, hsignature, hfits⟩ := hdeclared
    obtain ⟨pieces', hpieces', hall⟩ := hgiven.exists_separated
    have hmore : ts ++ closing :: after = us ++ closing' :: rest := by
      simpa using (List.cons.inj heq).2
    obtain rfl := hpieces.unique hpieces' hclosing hclosing' hmore
    exact ⟨signature, hsignature, forall₂_trans hall hfits⟩

end Grammar

open Grammar (Derives)

/-- **Parentheses enclose logical expressions or queries.** In a compiled text no operand of a
comparison is in parentheses: what follows the operator opens none, and parentheses that end before
it belong to a call. What is given to a function in parentheses is, as an argument for a value, a
singular query, and as one for nodes, a query or a call that lists nodes. -/
theorem compile_groups {environment : Environment} {text : Text} {query : Query}
    (h : environment.compile text = .ok query) :
    ∃ tokens, Token.ofQuery text = .ok tokens ∧
    (∀ before operator after comparison, tokens = before ++ operator :: after →
      Parser.comparison? operator.kind = some comparison →
      (∃ next more, after = next :: more ∧ next.kind ≠ .openParen) ∧
      ∀ front group inner, before = front ++ group → IsGroup group inner →
        ∃ function ∈ front.getLast?, function.kind = .function) ∧
    ∀ before function opening ts closing after pieces,
      tokens = before ++ function :: opening :: (ts ++ closing :: after) →
      function.kind = .function → closing.kind = .closeParen → Separated ts pieces →
      ∃ signature, environment.dialect.signatures function.text = some signature ∧
        List.Forall₂ (fun piece parameter => ∀ inner, IsGroup piece inner →
          ∃ e, Derives environment.dialect .disjunction inner e ∧
            (parameter = .value → e.isSingularQuery = true) ∧
            (parameter = .nodes → e.isQuery = true ∨
              e.resultType? environment.dialect.signatures = some .nodes))
          pieces signature.parameters := by
  obtain ⟨ts, final, htokens, hfinal, hderives⟩ := Grammar.derives_of_ofText h
  have hlocated := hderives.located
  refine ⟨ts ++ [final], htokens, fun before operator after comparison hsplit hoperator => ?_,
    fun before function opening given closing after pieces hsplit hfunction hclosing hpieces => ?_⟩
  · have hkind : operator.kind ≠ .endOfQuery := by
      intro hkind
      rw [hkind] at hoperator
      cases hoperator
    obtain ⟨more, hts, rfl⟩ := Grammar.exists_append_final hfinal hkind hsplit
    obtain ⟨front, us, vs, rest, left, right, rfl, rfl, hleft, hright⟩ :=
      (hlocated before operator more hts).comparison comparison hoperator
    obtain ⟨next, others, rfl, hnext⟩ := hright.head_ne_openParen
    refine ⟨⟨next, _, rfl, hnext⟩, fun front' group inner hbefore hgroup => ?_⟩
    exact hleft.function_of_ends_isGroup hgroup hbefore.symm
  · obtain ⟨more, hts, hmore⟩ := Grammar.exists_append_final hfinal (by simp [hfunction]) hsplit
    obtain ⟨us, rest, e, rfl, hcall⟩ := (hlocated before function more hts).call hfunction
    rw [List.append_assoc] at hmore
    obtain ⟨signature, hsignature, hall⟩ :=
      hcall.arguments_of_separated hmore hclosing hpieces
    refine ⟨signature, hsignature, hall.imp fun piece parameter hpiece inner hgroup => ?_⟩
    obtain ⟨e, hargument, hfits⟩ := hpiece
    exact ⟨e, (hargument.inner_of_isGroup hgroup).1, hargument.fits_of_isGroup hgroup hfits⟩

/-- An argument for a value that is in parentheses. -/
theorem compile_groups_length : ∃ query tokens,
    Environment.standard.compile "$[?length((@.a))==1]" = .ok query ∧
    Token.ofQuery "$[?length((@.a))==1]" = .ok tokens ∧
    ∃ inner e, IsGroup (tokens.extract 5 10) inner ∧
      Derives Environment.standard.dialect .disjunction inner e ∧ e.isSingularQuery = true := by
  let text : Text := "$[?length((@.a))==1]"
  let inner : List Token :=
    [⟨.current, "@", 11, 12, text⟩, ⟨.dot, ".", 12, 13, text⟩, ⟨.name, "a", 13, 14, text⟩]
  let group : List Token :=
    ⟨.openParen, "(", 10, 11, text⟩ :: (inner ++ [⟨.closeParen, ")", 14, 15, text⟩])
  have hlexed : Token.ofQuery text =
      .ok ([⟨.root, "$", 0, 1, text⟩, ⟨.openSquare, "[", 1, 2, text⟩, ⟨.filter, "?", 2, 3, text⟩] ++
        ⟨.function, "length", 3, 9, text⟩ :: ⟨.openParen, "(", 9, 10, text⟩ ::
          (group ++ ⟨.closeParen, ")", 15, 16, text⟩ :: [⟨.equals, "==", 16, 18, text⟩,
            ⟨.integer, "1", 18, 19, text⟩, ⟨.closeSquare, "]", 19, 20, text⟩,
              ⟨.endOfQuery, "", 20, 20, text⟩])) := by
    subst text
    cbv
  obtain ⟨query, hquery⟩ : ∃ query,
      Environment.standard.compile "$[?length((@.a))==1]" = .ok query := by
    unfold Environment.compile Query.ofText
    rw [hlexed]
    exact ⟨_, by subst text; cbv⟩
  obtain ⟨tokens, htokens, -, harguments⟩ := compile_groups hquery
  obtain rfl := Except.ok.inj (hlexed.symm.trans htokens)
  have hinner : IsPiece inner :=
    .cons rfl (by decide) (.cons rfl (by decide) (.one rfl (by decide)))
  have hgroup : IsGroup group inner := ⟨_, _, rfl, rfl, rfl, hinner.balanced⟩
  have hpieces : Separated group [group] :=
    .last (by simp [group]) (Grammar.isPiece_parens rfl hinner.balanced rfl)
  obtain ⟨signature, hsignature, hall⟩ := harguments _ _ _ _ _ _ _ rfl rfl rfl hpieces
  have hlength : Environment.standard.dialect.signatures "length" = some ⟨[.value], .value⟩ := by
    subst text
    cbv
  obtain rfl := Option.some.inj (hlength.symm.trans hsignature)
  obtain ⟨e, hderives, hvalue, -⟩ := (List.forall₂_cons.1 hall).1 inner hgroup
  exact ⟨query, _, hquery, hlexed, inner, e, hgroup, hderives, hvalue rfl⟩

/-- An argument for nodes in parentheses is accepted. -/
theorem compile_nodes_in_parens : ∃ query tokens before function opening group closing after inner,
    Environment.standard.compile "$[?count((@.*))==1]" = .ok query ∧
    Token.ofQuery "$[?count((@.*))==1]" = .ok tokens ∧
    tokens = before ++ function :: opening :: (group ++ closing :: after) ∧
    function.kind = .function ∧ closing.kind = .closeParen ∧
    Separated group [group] ∧ IsGroup group inner ∧
    Environment.standard.dialect.signatures function.text = some ⟨[.nodes], .value⟩ := by
  let text : Text := "$[?count((@.*))==1]"
  let inner : List Token :=
    [⟨.current, "@", 10, 11, text⟩, ⟨.dot, ".", 11, 12, text⟩, ⟨.wildcard, "*", 12, 13, text⟩]
  let group : List Token :=
    ⟨.openParen, "(", 9, 10, text⟩ :: (inner ++ [⟨.closeParen, ")", 13, 14, text⟩])
  have hlexed : Token.ofQuery text =
      .ok ([⟨.root, "$", 0, 1, text⟩, ⟨.openSquare, "[", 1, 2, text⟩, ⟨.filter, "?", 2, 3, text⟩] ++
        ⟨.function, "count", 3, 8, text⟩ :: ⟨.openParen, "(", 8, 9, text⟩ ::
          (group ++ ⟨.closeParen, ")", 14, 15, text⟩ :: [⟨.equals, "==", 15, 17, text⟩,
            ⟨.integer, "1", 17, 18, text⟩, ⟨.closeSquare, "]", 18, 19, text⟩,
              ⟨.endOfQuery, "", 19, 19, text⟩])) := by
    subst text
    cbv
  obtain ⟨query, hquery⟩ : ∃ query,
      Environment.standard.compile "$[?count((@.*))==1]" = .ok query := by
    unfold Environment.compile Query.ofText
    rw [hlexed]
    exact ⟨_, by subst text; cbv⟩
  have hinner : IsPiece inner :=
    .cons rfl (by decide) (.cons rfl (by decide) (.one rfl (by decide)))
  exact ⟨query, _, _, _, _, group, _, _, inner, hquery, hlexed, rfl, rfl, rfl,
    .last (by simp [group]) (Grammar.isPiece_parens rfl hinner.balanced rfl),
    ⟨_, _, rfl, rfl, rfl, hinner.balanced⟩, by cbv⟩

end JsonPath
