import JsonPath.Proofs.Canonical.Bare
import JsonPath.Proofs.Parser.Grammar
import JsonPath.Proofs.Token.Seam

/-!
# Queries at another place

A query that stands further on in another text has the same tree, but for the places of its tokens.
A derivation asks for the kinds and the texts of tokens only, so it can be moved along.
-/

namespace JsonPath

mutual

/-- The expression as it is in another query, with more text before it. -/
def Expr.moved (query : Text) (distance : Nat) : Expr → Expr
  | .literal token literal => .literal (token.moved query distance) literal
  | .negation token operand => .negation (token.moved query distance) (operand.moved query distance)
  | .conjunction token left right =>
    .conjunction (token.moved query distance) (left.moved query distance)
      (right.moved query distance)
  | .disjunction token left right =>
    .disjunction (token.moved query distance) (left.moved query distance)
      (right.moved query distance)
  | .comparison token left operator right =>
    .comparison (token.moved query distance) (left.moved query distance) operator
      (right.moved query distance)
  | .relative token segments =>
    .relative (token.moved query distance) (movedSegments query distance segments)
  | .absolute token segments =>
    .absolute (token.moved query distance) (movedSegments query distance segments)
  | .call token name arguments =>
    .call (token.moved query distance) name (movedArguments query distance arguments)

def movedArguments (query : Text) (distance : Nat) : List Expr → List Expr
  | [] => []
  | argument :: rest => argument.moved query distance :: movedArguments query distance rest

def Selector.moved (query : Text) (distance : Nat) : Selector → Selector
  | .name token name => .name (token.moved query distance) name
  | .index token index => .index (token.moved query distance) index
  | .wildcard token => .wildcard (token.moved query distance)
  | .slice token start? stop? step? => .slice (token.moved query distance) start? stop? step?
  | .filter token expression =>
    .filter (token.moved query distance) (expression.moved query distance)

def movedSelectors (query : Text) (distance : Nat) : List Selector → List Selector
  | [] => []
  | selector :: rest => selector.moved query distance :: movedSelectors query distance rest

def Segment.moved (query : Text) (distance : Nat) : Segment → Segment
  | .child token selectors =>
    .child (token.moved query distance) (movedSelectors query distance selectors)
  | .descendant token selectors =>
    .descendant (token.moved query distance) (movedSelectors query distance selectors)

def movedSegments (query : Text) (distance : Nat) : List Segment → List Segment
  | [] => []
  | segment :: rest => segment.moved query distance :: movedSegments query distance rest

end

variable (query : Text) (distance : Nat)

mutual

theorem Expr.bare_moved : ∀ e : Expr, (e.moved query distance).bare = e.bare
  | .literal _ _ => rfl
  | .negation _ operand => by
    rw [Expr.moved, Expr.bare, Expr.bare, Expr.bare_moved operand]
  | .conjunction _ left right | .disjunction _ left right | .comparison _ left _ right => by
    rw [Expr.moved, Expr.bare, Expr.bare, Expr.bare_moved left, Expr.bare_moved right]
  | .relative _ segments | .absolute _ segments => by
    rw [Expr.moved, Expr.bare, Expr.bare, bareSegments_moved segments]
  | .call _ _ arguments => by
    rw [Expr.moved, Expr.bare, Expr.bare, bareArguments_moved arguments]

theorem bareArguments_moved : ∀ arguments : List Expr,
    bareArguments (movedArguments query distance arguments) = bareArguments arguments
  | [] => rfl
  | argument :: rest => by
    rw [movedArguments, bareArguments, bareArguments, Expr.bare_moved argument,
      bareArguments_moved rest]

theorem Selector.bare_moved : ∀ selector : Selector,
    (selector.moved query distance).bare = selector.bare
  | .name _ _ | .index _ _ | .wildcard _ | .slice _ _ _ _ => rfl
  | .filter _ expression => by
    rw [Selector.moved, Selector.bare, Selector.bare, Expr.bare_moved expression]

theorem bareSelectors_moved : ∀ selectors : List Selector,
    bareSelectors (movedSelectors query distance selectors) = bareSelectors selectors
  | [] => rfl
  | selector :: rest => by
    rw [movedSelectors, bareSelectors, bareSelectors, Selector.bare_moved selector,
      bareSelectors_moved rest]

theorem Segment.bare_moved : ∀ segment : Segment, (segment.moved query distance).bare = segment.bare
  | .child _ selectors | .descendant _ selectors => by
    rw [Segment.moved, Segment.bare, Segment.bare, bareSelectors_moved selectors]

theorem bareSegments_moved : ∀ segments : List Segment,
    bareSegments (movedSegments query distance segments) = bareSegments segments
  | [] => rfl
  | segment :: rest => by
    rw [movedSegments, bareSegments, bareSegments, Segment.bare_moved segment,
      bareSegments_moved rest]

end

/-! ### Types -/

section

variable {signatures : Signatures} (e : Expr)

theorem Expr.resultType?_moved :
    (e.moved query distance).resultType? signatures = e.resultType? signatures := by
  rw [← (e.moved query distance).resultType?_bare, e.bare_moved, e.resultType?_bare]

theorem Expr.isSingularQuery_moved :
    (e.moved query distance).isSingularQuery = e.isSingularQuery := by
  rw [← (e.moved query distance).isSingularQuery_bare, e.bare_moved, e.isSingularQuery_bare]

theorem Expr.fits_moved (type : ExprType) :
    (e.moved query distance).fits signatures type = e.fits signatures type := by
  rw [← (e.moved query distance).fits_bare, e.bare_moved, e.fits_bare]

end

namespace Grammar

variable {dialect : Dialect} {query : Text} {distance : Nat}

theorem IsTest.moved {e : Expr} (h : IsTest dialect.signatures e) :
    IsTest dialect.signatures (e.moved query distance) := by
  unfold IsTest
  rw [e.resultType?_moved]
  exact h

theorem movedArguments_eq_map (given : List Expr) :
    movedArguments query distance given = given.map (Expr.moved query distance) := by
  induction given with
  | nil => rfl
  | cons e rest ih => rw [movedArguments, ih, List.map_cons]

theorem Declared.moved {name : Text} {given : List Expr}
    (h : Declared dialect.signatures name given) :
    Declared dialect.signatures name (movedArguments query distance given) := by
  obtain ⟨signature, hname, hfits⟩ := h
  refine ⟨signature, hname, ?_⟩
  rw [movedArguments_eq_map, List.forall₂_map_left_iff]
  exact hfits.imp fun e type hfit => (e.fits_moved query distance type).trans hfit

theorem Index.moved {token : Token} {i : Int} (h : Index dialect token i) :
    Index dialect (token.moved query distance) i :=
  ⟨h.kind, h.plain, h.spelled, h.least, h.greatest⟩

theorem literalText_eq_ok_iff {token : Token} {s : Text} :
    token.literalText = .ok s ↔ ∃ cs, Text.ofList cs = s ∧
      StringLiteral.decode (if token.kind = .singleQuoted then '\'' else '"') token.text.toList =
        .ok cs := by
  unfold Token.literalText
  dsimp only
  split
  next cs hcs => simp [hcs]
  next fault hfault => simp [hfault]

theorem literalText_moved {token : Token} {s : Text} (h : token.literalText = .ok s) :
    (token.moved query distance).literalText = .ok s :=
  literalText_eq_ok_iff.2 (@literalText_eq_ok_iff token s |>.1 h)

theorem Bound.moved {ts : List Token} {i? : Option Int} (h : Bound dialect ts i?) :
    Bound dialect (ts.map (Token.moved query distance)) i? := by
  cases h with
  | absent => exact .absent
  | present hindex => exact .present hindex.moved

theorem Stride.moved {ts : List Token} {i? : Option Int} (h : Stride dialect ts i?) :
    Stride dialect (ts.map (Token.moved query distance)) i? := by
  cases h with
  | absent => exact .absent
  | present hcolon hbound => exact .present hcolon hbound.moved

theorem Writes.moved {token : Token} {literal : Literal} (h : Writes token literal) :
    Writes (token.moved query distance) literal := by
  cases h with
  | string hkind htext => exact .string hkind (literalText_moved htext)
  | integer hkind hplain hspells hinteger hlength =>
    exact .integer hkind hplain hspells hinteger hlength
  | decimal hkind hplain hspells => exact .decimal hkind hplain hspells
  | true hkind => exact .true hkind
  | false hkind => exact .false hkind
  | null hkind => exact .null hkind

/-- The tree of a nonterminal as it is in another query, with more text before it. -/
def movedTree (query : Text) (distance : Nat) : (n : Nonterminal) → n.Tree → n.Tree
  | .query, segs => movedSegments query distance segs
  | .segments, segs => movedSegments query distance segs
  | .segment, seg => seg.moved query distance
  | .shorthand, sels => movedSelectors query distance sels
  | .bracketed, sels => movedSelectors query distance sels
  | .selectors, sels => movedSelectors query distance sels
  | .selector, sel => sel.moved query distance
  | .arguments, given => movedArguments query distance given
  | .disjunction, e => e.moved query distance
  | .conjunction, e => e.moved query distance
  | .basic, e => e.moved query distance
  | .unary, e => e.moved query distance
  | .comparable, e => e.moved query distance
  | .literal, e => e.moved query distance
  | .path, e => e.moved query distance
  | .call, e => e.moved query distance
  | .argument, e => e.moved query distance

/-- A derivation can be moved. -/
theorem Derives.moved {n : Nonterminal} {ts : List Token} {tree : n.Tree}
    (h : Derives dialect n ts tree) :
    Derives dialect n (ts.map (Token.moved query distance)) (movedTree query distance n tree) := by
  induction h with
  | query hroot _ ih => exact .query hroot ih
  | noSegments => exact .noSegments
  | moreSegments _ _ ih ih' =>
    rw [List.map_append]
    exact .moreSegments ih ih'
  | child hdot _ ih => exact .child hdot ih
  | descendant hdots _ ih => exact .descendant hdots ih
  | childBracketed _ ih => exact .childBracketed ih
  | descendantBracketed hdots _ ih => exact .descendantBracketed hdots ih
  | member hname => exact .member hname
  | anyMember hwildcard => exact .anyMember hwildcard
  | bracketed hopening _ hclosing ih =>
    rw [List.map_cons, List.map_append]
    exact .bracketed hopening ih hclosing
  | lastSelector _ ih => exact .lastSelector ih
  | moreSelectors _ hcomma _ ih ih' =>
    rw [List.map_append]
    exact .moreSelectors ih hcomma ih'
  | name hkind htext => exact .name hkind (literalText_moved htext)
  | wildcard hkind => exact .wildcard hkind
  | index hindex => exact .index hindex.moved
  | @slice ts us vs colon _ _ _ hstart hcolon hstop hstep =>
    have hhead : (ts.headD colon).moved query distance =
        (ts.map (Token.moved query distance)).headD (colon.moved query distance) := by
      cases ts <;> rfl
    rw [List.map_append, List.map_cons, List.map_append]
    change Derives dialect .selector _ (.slice ((ts.headD colon).moved query distance) _ _ _)
    rw [hhead]
    exact .slice hstart.moved hcolon hstop.moved hstep.moved
  | filter hmark _ htest ih => exact .filter hmark ih htest.moved
  | oneConjunction _ ih => exact .oneConjunction ih
  | disjunction _ hor _ hleft hright ih ih' =>
    rw [List.map_append]
    exact .disjunction ih hor ih' hleft.moved hright.moved
  | oneBasic _ ih => exact .oneBasic ih
  | conjunction _ hand _ hleft hright ih ih' =>
    rw [List.map_append]
    exact .conjunction ih hand ih' hleft.moved hright.moved
  | oneUnary _ ih => exact .oneUnary ih
  | comparison _ hoperator _ ih ih' =>
    rw [List.map_append]
    exact .comparison ih hoperator ih'
  | negation hnot _ htest ih => exact .negation hnot ih htest.moved
  | group hopening _ htest hclosing ih =>
    rw [List.map_cons, List.map_append]
    exact .group hopening ih htest.moved hclosing
  | unaryPath _ ih => exact .unaryPath ih
  | unaryCall _ ih => exact .unaryCall ih
  | comparableLiteral _ ih => exact .comparableLiteral ih
  | comparablePath _ hsingular ih =>
    exact .comparablePath ih ((Expr.isSingularQuery_moved _ _ _).trans hsingular)
  | comparableCall _ hresult ih =>
    exact .comparableCall ih ((Expr.resultType?_moved _ _ _).trans hresult)
  | literal hwrites => exact .literal hwrites.moved
  | absolute hroot _ ih => exact .absolute hroot ih
  | relative hcurrent _ ih => exact .relative hcurrent ih
  | emptyCall hfunction hopening hclosing hdeclared =>
    exact .emptyCall hfunction hopening hclosing hdeclared
  | call hfunction hopening _ hclosing hdeclared ih =>
    rw [List.map_cons, List.map_cons, List.map_append]
    exact .call hfunction hopening ih hclosing hdeclared.moved
  | lastArgument _ ih => exact .lastArgument ih
  | moreArguments _ hcomma _ ih ih' =>
    rw [List.map_append]
    exact .moreArguments ih hcomma ih'
  | literalArgument _ ih => exact .literalArgument ih
  | logicalArgument _ ih => exact .logicalArgument ih

end Grammar

end JsonPath
