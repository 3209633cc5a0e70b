import JsonPath.Proofs.Parser.Scanning

/-!
# Brackets and pieces

Counting the open brackets is enough to find where a phrase ends. Each phrase of the grammar closes
the brackets that it opens and no other, and but for lists it has no comma outside of them. So a
list of arguments falls apart at its outer commas in one way only.
-/

namespace JsonPath

/-- How many brackets are open after the token, more than before it. -/
def Token.turn (token : Token) : Int :=
  match token.kind with
  | .openSquare => 1
  | .openParen => 1
  | .closeSquare => -1
  | .closeParen => -1
  | _ => 0

/-- How many brackets are open after the tokens. -/
@[simp]
def nesting : List Token → Int
  | [] => 0
  | token :: ts => token.turn + nesting ts

@[simp]
theorem nesting_append (ts us : List Token) : nesting (ts ++ us) = nesting ts + nesting us := by
  induction ts with
  | nil => simp
  | cons token ts ih => rw [List.cons_append, nesting, nesting, ih, Int.add_assoc]

/-- The tokens close the brackets that they open and no other, and outside of their brackets there
are only tokens that may be there. -/
structure Nested (outside : Token → Prop) (ts : List Token) : Prop where
  total : nesting ts = 0
  each : ∀ before token after, ts = before ++ token :: after →
    0 ≤ nesting before ∧ (nesting before = 0 → outside token)

/-- The brackets are closed. -/
abbrev Balanced (ts : List Token) : Prop := Nested (fun _ => True) ts

/-- The brackets are closed, and all commas are within them. -/
abbrev IsPiece (ts : List Token) : Prop := Nested (·.kind ≠ .comma) ts

namespace Nested

variable {outside outside' : Token → Prop} {ts us : List Token} {token opening closing : Token}

theorem mono (h : Nested outside ts) (hmono : ∀ token, outside token → outside' token) :
    Nested outside' ts where
  total := h.total
  each before token after heq :=
    ⟨(h.each before token after heq).1, fun hzero => hmono _ ((h.each _ _ _ heq).2 hzero)⟩

theorem balanced (h : Nested outside ts) : Balanced ts := h.mono fun _ _ => trivial

theorem nonneg (h : Nested outside ts) {before after : List Token} (heq : ts = before ++ after) :
    0 ≤ nesting before := by
  cases after with
  | nil =>
    rw [List.append_nil] at heq
    exact Int.le_of_eq (heq ▸ h.total.symm)
  | cons token after => exact (h.each before token after heq).1

theorem nil : Nested outside [] := ⟨rfl, by simp⟩

theorem append (h : Nested outside ts) (h' : Nested outside us) : Nested outside (ts ++ us) where
  total := by rw [nesting_append, h.total, h'.total, Int.add_zero]
  each before token after heq := by
    rcases List.append_eq_append_iff.1 heq with ⟨more, rfl, hmore⟩ | ⟨more, rfl, hmore⟩
    · rw [nesting_append, h.total, Int.zero_add]
      exact h'.each more token after hmore
    · cases more with
      | nil =>
        have htotal := h.total
        rw [List.append_nil] at htotal
        rw [htotal]
        exact h'.each [] token after hmore.symm
      | cons head more =>
        obtain ⟨rfl, -⟩ := List.cons.inj hmore
        exact h.each before token more rfl

theorem one (hturn : token.turn = 0) (h : outside token) : Nested outside [token] where
  total := by simp [hturn]
  each before t after heq := by
    cases before with
    | nil =>
      obtain ⟨rfl, -⟩ := List.cons.inj heq
      exact ⟨Int.le_refl 0, fun _ => h⟩
    | cons head before => simp at heq

theorem cons (hturn : token.turn = 0) (h : outside token) (hmore : Nested outside ts) :
    Nested outside (token :: ts) := (one hturn h).append hmore

/-- What stands in brackets may be anything that closes its own. -/
theorem enclosed (hopening : opening.turn = 1) (h : outside opening) (hbalanced : Balanced ts)
    (hclosing : closing.turn = -1) : Nested outside (opening :: (ts ++ [closing])) where
  total := by simp [hopening, hbalanced.total, hclosing]
  each before token after heq := by
    cases before with
    | nil =>
      obtain ⟨rfl, -⟩ := List.cons.inj heq
      exact ⟨Int.le_refl 0, fun _ => h⟩
    | cons head before =>
      obtain ⟨rfl, hinner⟩ := List.cons.inj heq
      obtain ⟨more, hts⟩ : ∃ more, ts = before ++ more := by
        rcases List.append_eq_append_iff.1 hinner with ⟨more, rfl, hmore⟩ | ⟨more, rfl, -⟩
        · cases more with
          | nil => exact ⟨[], by simp⟩
          | cons head more => simp at hmore
        · exact ⟨more, rfl⟩
      have hleast := hbalanced.nonneg hts
      rw [nesting, hopening]
      exact ⟨by omega, fun hzero => by omega⟩

end Nested

namespace Grammar

variable {dialect : Dialect} {token : Token} {ts : List Token}

/-- The kinds of tokens that are neither brackets nor commas. -/
def IsPlain (token : Token) : Prop :=
  token.kind ∉ [TokenKind.openSquare, .closeSquare, .openParen, .closeParen, .comma]

theorem IsPlain.turn (h : IsPlain token) : token.turn = 0 := by
  unfold Token.turn
  split <;> simp_all [IsPlain]

theorem IsPlain.not_comma (h : IsPlain token) : token.kind ≠ .comma := by
  intro hcomma
  simp [IsPlain, hcomma] at h

theorem IsPlain.cons (h : IsPlain token) (hmore : IsPiece ts) : IsPiece (token :: ts) :=
  Nested.cons h.turn h.not_comma hmore

theorem IsPlain.one (h : IsPlain token) : IsPiece [token] := h.cons .nil

theorem isPlain_of_comparison? {comparison : Comparison}
    (h : Parser.comparison? token.kind = some comparison) : IsPlain token := by
  unfold Parser.comparison? at h
  split at h <;> simp_all [IsPlain]

theorem Index.isPlain {i : Int} (h : Index dialect token i) : IsPlain token := by
  simp [IsPlain, h.kind]

theorem Bound.isPiece {i? : Option Int} (h : Bound dialect ts i?) : IsPiece ts := by
  cases h with
  | absent => exact .nil
  | present h => exact h.isPlain.one

theorem Stride.isPiece {i? : Option Int} (h : Stride dialect ts i?) : IsPiece ts := by
  cases h with
  | absent => exact .nil
  | present hcolon h => exact IsPlain.cons (by simp [IsPlain, hcolon]) h.isPiece

theorem Writes.isPlain {literal : Literal} (h : Writes token literal) : IsPlain token := by
  cases h with
  | string hkind => rcases hkind with hkind | hkind <;> simp [IsPlain, hkind]
  | integer hkind | decimal hkind | true hkind | false hkind | null hkind => simp [IsPlain, hkind]

theorem isPiece_parens {opening closing : Token} (hopening : opening.kind = .openParen)
    (h : Balanced ts) (hclosing : closing.kind = .closeParen) :
    IsPiece (opening :: (ts ++ [closing])) :=
  .enclosed (by simp [Token.turn, hopening]) (by simp [hopening]) h
    (by simp [Token.turn, hclosing])

/-- Lists close their brackets, and all other phrases are pieces. -/
def Nonterminal.IsNested : Nonterminal → List Token → Prop
  | .selectors, ts | .arguments, ts => Balanced ts
  | _, ts => IsPiece ts

theorem Derives.isNested {n : Nonterminal} {tree : n.Tree} (h : Derives dialect n ts tree) :
    Nonterminal.IsNested n ts := by
  have hcomma {comma : Token} {us : List Token} (hkind : comma.kind = .comma) (h : Balanced us) :
      Balanced (comma :: us) := .cons (by simp [Token.turn, hkind]) trivial h
  induction h with
  | noSegments => exact .nil
  | query hkind _ ih | child hkind _ ih | descendant hkind _ ih | descendantBracketed hkind _ ih
  | filter hkind _ _ ih | negation hkind _ _ ih | absolute hkind _ ih | relative hkind _ ih =>
    exact IsPlain.cons (by simp [IsPlain, hkind]) ih
  | member hkind | anyMember hkind | wildcard hkind => exact IsPlain.one (by simp [IsPlain, hkind])
  | name hkind => exact IsPlain.one (by rcases hkind with hkind | hkind <;> simp [IsPlain, hkind])
  | index h => exact h.isPlain.one
  | literal h => exact h.isPlain.one
  | moreSegments _ _ ih ihMore => exact ih.append ihMore
  | bracketed hopening _ hclosing ih =>
    exact .enclosed (by simp [Token.turn, hopening]) (by simp [hopening]) ih
      (by simp [Token.turn, hclosing])
  | lastSelector _ ih | lastArgument _ ih => exact ih.balanced
  | moreSelectors _ hkind _ ih ihMore | moreArguments _ hkind _ ih ihMore =>
    exact ih.balanced.append (hcomma hkind ihMore)
  | slice hstart hcolon hstop hstride =>
    exact hstart.isPiece.append
      (IsPlain.cons (by simp [IsPlain, hcolon]) (hstop.isPiece.append hstride.isPiece))
  | disjunction _ hkind _ _ _ ih ihRight | conjunction _ hkind _ _ _ ih ihRight =>
    exact ih.append (IsPlain.cons (by simp [IsPlain, hkind]) ihRight)
  | comparison _ hoperator _ ih ihRight =>
    exact ih.append ((isPlain_of_comparison? hoperator).cons ihRight)
  | group hopening _ _ hclosing ih => exact isPiece_parens hopening ih.balanced hclosing
  | emptyCall hfunction hopening hclosing =>
    exact IsPlain.cons (by simp [IsPlain, hfunction])
      (isPiece_parens hopening .nil hclosing)
  | call hfunction hopening _ hclosing _ ih =>
    exact IsPlain.cons (by simp [IsPlain, hfunction]) (isPiece_parens hopening ih hclosing)
  | childBracketed _ ih | oneConjunction _ ih | oneBasic _ ih | oneUnary _ ih | unaryPath _ ih
  | unaryCall _ ih | comparableLiteral _ ih | comparablePath _ _ ih | comparableCall _ _ ih
  | literalArgument _ ih | logicalArgument _ ih => exact ih

end Grammar

/-! ### Pieces -/

/-- The tokens are these pieces with commas between them. -/
inductive Separated : List Token → List (List Token) → Prop
  | last {piece : List Token} : piece ≠ [] → IsPiece piece → Separated piece [piece]
  | more {piece ts : List Token} {comma : Token} {pieces : List (List Token)} : piece ≠ [] →
      IsPiece piece → comma.kind = .comma → Separated ts pieces →
      Separated (piece ++ comma :: ts) (piece :: pieces)

/-- What cannot stand in a piece outside of its brackets. -/
def Token.EndsPiece (token : Token) : Prop := token.kind = .comma ∨ token.kind = .closeParen

theorem IsPiece.not_append_ends {ts more : List Token} {token : Token}
    (h : IsPiece (ts ++ token :: more)) (hts : nesting ts = 0) : ¬ token.EndsPiece := by
  rintro (hcomma | hclosing)
  · exact (h.each ts token more rfl).2 hts hcomma
  · have heq : ts ++ token :: more = (ts ++ [token]) ++ more := List.append_cons ts token more
    have hleast := h.nonneg heq
    simp [hts, Token.turn, hclosing] at hleast

/-- Two pieces that start the same tokens, each with an end behind it, are the same. -/
theorem IsPiece.eq_of_append {ts us more more' : List Token} {token token' : Token}
    (h : IsPiece ts) (h' : IsPiece us) (htoken : token.EndsPiece) (htoken' : token'.EndsPiece)
    (heq : ts ++ token :: more = us ++ token' :: more') :
    ts = us ∧ token = token' ∧ more = more' := by
  rcases List.append_eq_append_iff.1 heq with ⟨rest, rfl, hrest⟩ | ⟨rest, rfl, hrest⟩
  · cases rest with
    | nil =>
      obtain ⟨rfl, rfl⟩ := List.cons.inj hrest
      exact ⟨by simp, rfl, rfl⟩
    | cons head rest =>
      obtain ⟨rfl, -⟩ := List.cons.inj hrest
      exact absurd htoken (h'.not_append_ends h.total)
  · cases rest with
    | nil =>
      obtain ⟨rfl, rfl⟩ := List.cons.inj hrest
      exact ⟨by simp, rfl, rfl⟩
    | cons head rest =>
      obtain ⟨rfl, -⟩ := List.cons.inj hrest
      exact absurd htoken' (h.not_append_ends h'.total)

theorem Separated.exists_first {ts : List Token} {pieces : List (List Token)}
    (h : Separated ts pieces) : ∃ first more, ts = first :: more ∧ ¬ first.EndsPiece := by
  have hpiece {piece : List Token} (hne : piece ≠ []) (h : IsPiece piece) :
      ∃ first more, piece = first :: more ∧ ¬ first.EndsPiece := by
    obtain ⟨first, more, rfl⟩ := List.exists_cons_of_ne_nil hne
    have hfirst : IsPiece ([] ++ first :: more) := h
    exact ⟨first, more, rfl, hfirst.not_append_ends rfl⟩
  cases h with
  | last hne h => exact hpiece hne h
  | more hne h =>
    obtain ⟨first, more, rfl, hfirst⟩ := hpiece hne h
    exact ⟨first, _, rfl, hfirst⟩

/-- Before a closing parenthesis there is one way only to separate the same tokens. -/
theorem Separated.unique {ts us : List Token} {pieces pieces' : List (List Token)}
    (h : Separated ts pieces) (h' : Separated us pieces') {closing closing' : Token}
    (hclosing : closing.kind = .closeParen) (hclosing' : closing'.kind = .closeParen)
    {more more' : List Token} (heq : ts ++ closing :: more = us ++ closing' :: more') :
    pieces = pieces' := by
  have hclose : closing.EndsPiece := .inr hclosing
  have hclose' : closing'.EndsPiece := .inr hclosing'
  induction h generalizing us pieces' with
  | last _ hpiece =>
    cases h' with
    | last _ hpiece' =>
      obtain ⟨rfl, -⟩ := hpiece.eq_of_append hpiece' hclose hclose' heq
      rfl
    | more _ hpiece' hcomma _ =>
      rw [List.append_assoc, List.cons_append] at heq
      obtain ⟨-, rfl, -⟩ := hpiece.eq_of_append hpiece' hclose (.inl hcomma) heq
      simp [hclosing] at hcomma
  | more _ hpiece hcomma _ ih =>
    rw [List.append_assoc, List.cons_append] at heq
    cases h' with
    | last _ hpiece' =>
      obtain ⟨-, rfl, -⟩ := hpiece.eq_of_append hpiece' (.inl hcomma) hclose' heq
      simp [hclosing'] at hcomma
    | more _ hpiece' hcomma' h' =>
      rw [List.append_assoc, List.cons_append] at heq
      obtain ⟨rfl, -, hmore⟩ := hpiece.eq_of_append hpiece' (.inl hcomma) (.inl hcomma') heq
      rw [ih h' hmore]

/-! ### Groups -/

/-- The tokens are others between parentheses that belong together. -/
def IsGroup (ts inner : List Token) : Prop :=
  ∃ opening closing, ts = opening :: (inner ++ [closing]) ∧ opening.kind = .openParen ∧
    closing.kind = .closeParen ∧ Balanced inner

/-- The bracket that belongs to the end of the tokens is found by counting back. -/
theorem Balanced.eq_of_opening {ts us before before' : List Token} {opening opening' : Token}
    (h : Balanced ts) (h' : Balanced us) (hopening : opening.kind = .openParen)
    (hopening' : opening'.kind = .openParen)
    (heq : before ++ opening :: ts = before' ++ opening' :: us) : before = before' := by
  rcases List.append_eq_append_iff.1 heq with ⟨rest, rfl, hrest⟩ | ⟨rest, rfl, hrest⟩
  · cases rest with
    | nil => simp
    | cons head rest =>
      have hts : ts = rest ++ opening' :: us := (List.cons.inj hrest).2
      have hleast := h.nonneg hts
      have htotal := h.total
      simp only [hts, nesting_append, nesting, Token.turn, hopening', h'.total] at htotal
      omega
  · cases rest with
    | nil => simp
    | cons head rest =>
      have hus : us = rest ++ opening :: ts := (List.cons.inj hrest).2
      have hleast := h'.nonneg hus
      have htotal := h'.total
      simp only [hus, nesting_append, nesting, Token.turn, hopening, h.total] at htotal
      omega

/-- No part of a group before its end closes all brackets. -/
theorem IsGroup.not_append {ts inner us more : List Token} {token : Token}
    (h : IsGroup ts inner) (hus : nesting us = 0) (hne : us ≠ [])
    (heq : ts = us ++ token :: more) : False := by
  obtain ⟨opening, closing, rfl, hopening, -, hinner⟩ := h
  obtain ⟨head, us, rfl⟩ := List.exists_cons_of_ne_nil hne
  obtain ⟨rfl, hrest⟩ := List.cons.inj heq
  obtain ⟨rest, hinner'⟩ : ∃ rest, inner = us ++ rest := by
    rcases List.append_eq_append_iff.1 hrest with ⟨rest, rfl, hmore⟩ | ⟨rest, rfl, -⟩
    · cases rest with
      | nil => exact ⟨[], by simp⟩
      | cons head rest => simp at hmore
    · exact ⟨rest, rfl⟩
  have hleast := hinner.nonneg hinner'
  simp only [nesting, Token.turn, hopening] at hus
  omega

end JsonPath
