import JsonPath.Proofs.Parser.Scanning

/-!
# What encloses a token

The kinds of the tokens alone tell in which brackets a token of a query stands, and whether it
belongs to a filter expression. A number directly in square brackets is an index or a part of a
slice; everywhere else it is a literal. The grammar agrees with that: each phrase leaves the open
brackets as it finds them, and its numbers are read according to where they stand.
-/

namespace JsonPath

/-- What an open bracket encloses: selectors, of which the last may be a filter, or what stands in
parentheses. -/
inductive Enclosure where
  | selectors
  | filter
  | parens
deriving DecidableEq

/-- The brackets that are open after a token, the innermost first. -/
def Token.enclose (opened : List Enclosure) (token : Token) : List Enclosure :=
  match token.kind, opened with
  | .openSquare, outer => .selectors :: outer
  | .openParen, outer => .parens :: outer
  | .closeSquare, _ :: outer => outer
  | .closeParen, _ :: outer => outer
  | .filter, .selectors :: outer => .filter :: outer
  | .comma, .filter :: outer => .selectors :: outer
  | _, outer => outer

/-- Whether what comes next is directly in square brackets, and in no filter expression there. -/
def isAmongSelectors (before : List Token) : Bool :=
  (before.foldl Token.enclose []).head? == some .selectors

/-- From some open brackets the tokens lead to others, and what is said of tokens holds of each of
them where it stands. -/
structure Passes (holds : List Enclosure → Token → Prop) (opened : List Enclosure)
    (ts : List Token) (after : List Enclosure) : Prop where
  final : ts.foldl Token.enclose opened = after
  each : ∀ before token rest, ts = before ++ token :: rest →
    holds (before.foldl Token.enclose opened) token

namespace Passes

variable {holds : List Enclosure → Token → Prop} {opened between after : List Enclosure}
  {token : Token} {ts us : List Token}

theorem nil : Passes holds opened [] opened := ⟨rfl, by simp⟩

theorem append (h : Passes holds opened ts between) (h' : Passes holds between us after) :
    Passes holds opened (ts ++ us) after where
  final := by rw [List.foldl_append, h.final, h'.final]
  each before token rest heq := by
    rcases List.append_eq_append_iff.1 heq with ⟨more, rfl, hmore⟩ | ⟨more, rfl, hmore⟩
    · rw [List.foldl_append, h.final]
      exact h'.each more token rest hmore
    · cases more with
      | nil =>
        have hfinal := h.final
        rw [List.append_nil] at hfinal
        rw [hfinal]
        exact h'.each [] token rest hmore.symm
      | cons head more =>
        obtain ⟨rfl, -⟩ := List.cons.inj hmore
        exact h.each before token more rfl

theorem cons (h : holds opened token) (hmore : Passes holds (token.enclose opened) ts after) :
    Passes holds opened (token :: ts) after := by
  have hone : Passes holds opened [token] (token.enclose opened) := by
    refine ⟨rfl, fun before t rest heq => ?_⟩
    cases before with
    | nil =>
      obtain ⟨rfl, -⟩ := List.cons.inj heq
      exact h
    | cons head before => simp at heq
  exact hone.append hmore

end Passes

namespace Grammar

variable {dialect : Dialect} {opened outer : List Enclosure} {token : Token} {ts : List Token}

/-- Among selectors the token is no number, or one that can be an index; elsewhere it is no number,
or one that can be a literal. -/
def IsInPlace (dialect : Dialect) (opened : List Enclosure) (token : Token) : Prop :=
  token.kind = .integer ∨ token.kind = .decimal →
    if opened.head? = some .selectors then ∃ i, Index dialect token i
    else ∃ literal, Writes token literal

abbrev InPlace (dialect : Dialect) := Passes (IsInPlace dialect)

theorem isInPlace_of_kind (h : token.kind ≠ .integer ∧ token.kind ≠ .decimal) :
    IsInPlace dialect opened token := fun hnumber => (hnumber.elim h.1 h.2).elim

/-- How the phrases of a nonterminal stand among brackets. A list of selectors starts as one and may
end within a filter. -/
def Nonterminal.InPlace (dialect : Dialect) : Nonterminal → List Token → Prop
  | .query, ts | .segments, ts | .segment, ts | .shorthand, ts | .bracketed, ts =>
    ∀ opened, Grammar.InPlace dialect opened ts opened
  | .selectors, ts | .selector, ts => ∀ outer, ∃ last ∈ [Enclosure.selectors, .filter],
    Grammar.InPlace dialect (.selectors :: outer) ts (last :: outer)
  | .arguments, ts => ∀ outer, Grammar.InPlace dialect (.parens :: outer) ts (.parens :: outer)
  | .disjunction, ts | .conjunction, ts | .basic, ts | .unary, ts | .comparable, ts | .literal, ts
  | .path, ts | .call, ts | .argument, ts =>
    ∀ opened, opened.head? ≠ some .selectors → Grammar.InPlace dialect opened ts opened

/-- The kinds of tokens that change what is open, and of numbers. -/
def marks : List TokenKind :=
  [.openSquare, .closeSquare, .openParen, .closeParen, .filter, .comma, .integer, .decimal]

theorem enclose_eq_self (h : token.kind ∉ marks ∨ token.kind = .integer ∨ token.kind = .decimal) :
    token.enclose opened = opened := by
  unfold Token.enclose
  split <;> simp_all [marks]

namespace InPlace

variable {after : List Enclosure} {i : Int} {i? : Option Int} {value : Literal}

/-- What is neither a bracket nor a number changes nothing. -/
theorem skip (h : token.kind ∉ marks) (hmore : InPlace dialect opened ts after) :
    InPlace dialect opened (token :: ts) after := by
  have hkind : token.kind ≠ .integer ∧ token.kind ≠ .decimal := by
    constructor <;> intro heq <;> simp [marks, heq] at h
  have hself : token.enclose opened = opened := enclose_eq_self (.inl h)
  exact Passes.cons (isInPlace_of_kind hkind) (hself.symm ▸ hmore)

theorem index (h : Index dialect token i) :
    InPlace dialect (.selectors :: outer) [token] (.selectors :: outer) := by
  have hself : token.enclose (.selectors :: outer) = .selectors :: outer :=
    enclose_eq_self (.inr (.inl h.kind))
  have hread : IsInPlace dialect (.selectors :: outer) token := fun _ => by
    rw [List.head?_cons, if_pos rfl]
    exact ⟨i, h⟩
  exact Passes.cons hread (by rw [hself]; exact .nil)

theorem bound (h : Bound dialect ts i?) :
    InPlace dialect (.selectors :: outer) ts (.selectors :: outer) := by
  cases h with
  | absent => exact .nil
  | present h => exact index h

theorem stride (h : Stride dialect ts i?) :
    InPlace dialect (.selectors :: outer) ts (.selectors :: outer) := by
  cases h with
  | absent => exact .nil
  | present hcolon h => exact skip (by simp [marks, hcolon]) (bound h)

theorem literal (h : Writes token value) (hopened : opened.head? ≠ some .selectors) :
    InPlace dialect opened [token] opened := by
  have hself : token.enclose opened = opened := by
    refine enclose_eq_self ?_
    cases h with
    | integer hkind => exact .inr (.inl hkind)
    | decimal hkind => exact .inr (.inr hkind)
    | string hkind => rcases hkind with hkind | hkind <;> simp [marks, hkind]
    | true hkind | false hkind | null hkind => simp [marks, hkind]
  have hread : IsInPlace dialect opened token := fun _ => by
    rw [if_neg hopened]
    exact ⟨value, h⟩
  exact Passes.cons hread (by rw [hself]; exact .nil)

/-- What stands between parentheses. -/
theorem closed {opening closing : Token} (hopening : opening.kind = .openParen)
    (h : InPlace dialect (.parens :: opened) ts (.parens :: opened))
    (hclosing : closing.kind = .closeParen) :
    InPlace dialect opened (opening :: (ts ++ [closing])) opened := by
  have hopen : opening.enclose opened = .parens :: opened := by simp [Token.enclose, hopening]
  have hclose : closing.enclose (.parens :: opened) = opened := by simp [Token.enclose, hclosing]
  have hlast : InPlace dialect (.parens :: opened) [closing] opened :=
    Passes.cons (isInPlace_of_kind (by simp [hclosing])) (by rw [hclose]; exact .nil)
  exact Passes.cons (isInPlace_of_kind (by simp [hopening])) (by rw [hopen]; exact h.append hlast)

/-- What stands between square brackets. -/
theorem bracketed {opening closing : Token} {last : Enclosure}
    (hopening : opening.kind = .openSquare)
    (h : InPlace dialect (.selectors :: opened) ts (last :: opened))
    (hclosing : closing.kind = .closeSquare) :
    InPlace dialect opened (opening :: (ts ++ [closing])) opened := by
  have hopen : opening.enclose opened = .selectors :: opened := by simp [Token.enclose, hopening]
  have hclose : closing.enclose (last :: opened) = opened := by simp [Token.enclose, hclosing]
  have hlast : InPlace dialect (last :: opened) [closing] opened :=
    Passes.cons (isInPlace_of_kind (by simp [hclosing])) (by rw [hclose]; exact .nil)
  exact Passes.cons (isInPlace_of_kind (by simp [hopening])) (by rw [hopen]; exact h.append hlast)

end InPlace

theorem not_mem_marks_of_comparison? {comparison : Comparison}
    (h : Parser.comparison? token.kind = some comparison) : token.kind ∉ marks := by
  unfold Parser.comparison? at h
  split at h <;> simp_all [marks]

theorem Derives.inPlace {n : Nonterminal} {tree : n.Tree} (h : Derives dialect n ts tree) :
    Nonterminal.InPlace dialect n ts := by
  induction h with
  | query hroot _ ih => exact fun opened => .skip (by simp [marks, hroot]) (ih opened)
  | noSegments => exact fun opened => .nil
  | moreSegments _ _ ih ihMore => exact fun opened => (ih opened).append (ihMore opened)
  | child hdot _ ih => exact fun opened => .skip (by simp [marks, hdot]) (ih opened)
  | descendant hdots _ ih | descendantBracketed hdots _ ih =>
    exact fun opened => .skip (by simp [marks, hdots]) (ih opened)
  | childBracketed _ ih => exact ih
  | member hkind | anyMember hkind => exact fun opened => .skip (by simp [marks, hkind]) .nil
  | bracketed hopening _ hclosing ih =>
    intro opened
    obtain ⟨last, -, h⟩ := ih opened
    exact .bracketed hopening h hclosing
  | lastSelector _ ih => exact ih
  | moreSelectors _ hcomma _ ih ihMore =>
    intro outer
    obtain ⟨last, hlast, h⟩ := ih outer
    obtain ⟨last', hlast', hmore⟩ := ihMore outer
    refine ⟨last', hlast', h.append (Passes.cons (isInPlace_of_kind (by simp [hcomma])) ?_)⟩
    simp only [List.mem_cons, List.not_mem_nil, or_false] at hlast
    rcases hlast with rfl | rfl <;> simpa [Token.enclose, hcomma] using hmore
  | name hkind =>
    refine fun outer => ⟨.selectors, by simp, .skip ?_ .nil⟩
    rcases hkind with hkind | hkind <;> simp [marks, hkind]
  | wildcard hkind => exact fun outer => ⟨.selectors, by simp, .skip (by simp [marks, hkind]) .nil⟩
  | index h => exact fun outer => ⟨.selectors, by simp, .index h⟩
  | slice hstart hcolon hstop hstride =>
    refine fun outer => ⟨.selectors, by simp, (InPlace.bound hstart).append ?_⟩
    exact InPlace.skip (by simp [marks, hcolon])
      ((InPlace.bound hstop).append (InPlace.stride hstride))
  | filter hmark _ _ ih =>
    refine fun outer => ⟨.filter, by simp, Passes.cons (isInPlace_of_kind (by simp [hmark])) ?_⟩
    simpa [Token.enclose, hmark] using ih (.filter :: outer) (by simp)
  | oneConjunction _ ih | oneBasic _ ih | oneUnary _ ih | unaryPath _ ih | unaryCall _ ih
  | comparableLiteral _ ih | comparablePath _ _ ih | comparableCall _ _ ih | literalArgument _ ih
  | logicalArgument _ ih => exact ih
  | disjunction _ hor _ _ _ ih ihRight =>
    exact fun opened h =>
      (ih opened h).append (InPlace.skip (by simp [marks, hor]) (ihRight opened h))
  | conjunction _ hand _ _ _ ih ihRight =>
    exact fun opened h =>
      (ih opened h).append (InPlace.skip (by simp [marks, hand]) (ihRight opened h))
  | comparison _ hoperator _ ih ihRight =>
    exact fun opened h => (ih opened h).append
      (InPlace.skip (not_mem_marks_of_comparison? hoperator) (ihRight opened h))
  | negation hnot _ _ ih =>
    exact fun opened h => .skip (by simp [marks, hnot]) (ih opened h)
  | group hopening _ _ hclosing ih =>
    exact fun opened h => .closed hopening (ih (.parens :: opened) (by simp)) hclosing
  | literal h => exact fun opened hopened => .literal h hopened
  | absolute hkind _ ih | relative hkind _ ih =>
    exact fun opened _ => .skip (by simp [marks, hkind]) (ih opened)
  | emptyCall hfunction hopening hclosing =>
    exact fun opened _ => .skip (by simp [marks, hfunction]) (.closed hopening .nil hclosing)
  | call hfunction hopening _ hclosing _ ih =>
    exact fun opened _ => .skip (by simp [marks, hfunction]) (.closed hopening (ih opened) hclosing)
  | lastArgument _ ih => exact fun outer => ih (.parens :: outer) (by simp)
  | moreArguments _ hcomma _ ih ihMore =>
    refine fun outer => (ih (.parens :: outer) (by simp)).append
      (Passes.cons (isInPlace_of_kind (by simp [hcomma])) ?_)
    simpa [Token.enclose, hcomma] using ihMore outer

end Grammar

end JsonPath
