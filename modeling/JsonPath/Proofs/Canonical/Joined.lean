import JsonPath.Proofs.Canonical.Bare
import JsonPath.Proofs.Canonical.Literals
import JsonPath.Proofs.Parser.Soundness
import JsonPath.Proofs.Token.Spans
import JsonPath.Proofs.Token.Units

/-!
# Queries with joined surrogates

The string literals of a query can hold the surrogates of a pair one by one, which its text does not
tell from the character that they are joined to. In the query of a text without surrogates there is
nothing to join.
-/

namespace JsonPath

def Literal.joined : Literal → Literal
  | .string s => .string s.joined
  | literal => literal

theorem Literal.text_joined (literal : Literal) : literal.joined.text = literal.text := by
  cases literal with
  | string s => exact Text.jsonLiteral_joined s
  | null | boolean | number => rfl

mutual

/-- The expression in whose string literals each pair of surrogates is one character. -/
def Expr.joined : Expr → Expr
  | .literal token literal => .literal token literal.joined
  | .negation token operand => .negation token operand.joined
  | .conjunction token left right => .conjunction token left.joined right.joined
  | .disjunction token left right => .disjunction token left.joined right.joined
  | .comparison token left operator right => .comparison token left.joined operator right.joined
  | .relative token segments => .relative token (joinedSegments segments)
  | .absolute token segments => .absolute token (joinedSegments segments)
  | .call token name arguments => .call token name (joinedArguments arguments)

def joinedArguments : List Expr → List Expr
  | [] => []
  | argument :: rest => argument.joined :: joinedArguments rest

def Selector.joined : Selector → Selector
  | .filter token expression => .filter token expression.joined
  | selector => selector

def joinedSelectors : List Selector → List Selector
  | [] => []
  | selector :: rest => selector.joined :: joinedSelectors rest

def Segment.joined : Segment → Segment
  | .child token selectors => .child token (joinedSelectors selectors)
  | .descendant token selectors => .descendant token (joinedSelectors selectors)

def joinedSegments : List Segment → List Segment
  | [] => []
  | segment :: rest => segment.joined :: joinedSegments rest

end

theorem joinedArguments_eq_map (given : List Expr) :
    joinedArguments given = given.map Expr.joined := by
  induction given with
  | nil => rfl
  | cons e given ih => rw [joinedArguments, ih, List.map_cons]

theorem joinedSelectors_eq_map (sels : List Selector) :
    joinedSelectors sels = sels.map Selector.joined := by
  induction sels with
  | nil => rfl
  | cons sel sels ih => rw [joinedSelectors, ih, List.map_cons]

/-! ### Texts -/

mutual

theorem Expr.text_joined : ∀ e : Expr, e.joined.text = e.text
  | .literal _ literal => literal.text_joined
  | .negation _ operand => by
    rw [Expr.joined, Expr.text, Expr.text, Expr.text_joined operand]
  | .conjunction _ left right | .disjunction _ left right | .comparison _ left _ right => by
    rw [Expr.joined, Expr.text, Expr.text, Expr.text_joined left, Expr.text_joined right]
  | .relative _ segments | .absolute _ segments => by
    rw [Expr.joined, Expr.text, Expr.text, segmentsText_joined segments]
  | .call _ _ arguments => by
    rw [Expr.joined, Expr.text, Expr.text, argumentTexts_joined arguments]

theorem argumentTexts_joined : ∀ arguments : List Expr,
    argumentTexts (joinedArguments arguments) = argumentTexts arguments
  | [] => rfl
  | argument :: rest => by
    rw [joinedArguments, argumentTexts, argumentTexts, Expr.text_joined argument,
      argumentTexts_joined rest]

theorem Selector.text_joined : ∀ selector : Selector, selector.joined.text = selector.text
  | .name _ _ | .index _ _ | .wildcard _ | .slice _ _ _ _ => rfl
  | .filter _ expression => by
    rw [Selector.joined, Selector.text, Selector.text, Expr.text_joined expression]

theorem selectorTexts_joined : ∀ selectors : List Selector,
    selectorTexts (joinedSelectors selectors) = selectorTexts selectors
  | [] => rfl
  | selector :: rest => by
    rw [joinedSelectors, selectorTexts, selectorTexts, Selector.text_joined selector,
      selectorTexts_joined rest]

theorem Segment.text_joined : ∀ segment : Segment, segment.joined.text = segment.text
  | .child _ selectors | .descendant _ selectors => by
    rw [Segment.joined, Segment.text, Segment.text, selectorTexts_joined selectors]

theorem segmentsText_joined : ∀ segments : List Segment,
    segmentsText (joinedSegments segments) = segmentsText segments
  | [] => rfl
  | segment :: rest => by
    rw [joinedSegments, segmentsText, segmentsText, Segment.text_joined segment,
      segmentsText_joined rest]

end

theorem Query.text_joined (query : Query) : Query.text (joinedSegments query) = query.text := by
  rw [Query.text, Query.text, segmentsText_joined]

/-! ### Types -/

section Types

variable {signatures : Signatures}

theorem Selector.isSingular_joined (selector : Selector) :
    selector.joined.isSingular = selector.isSingular := by
  cases selector <;> rfl

theorem Segment.isSingular_joined (segment : Segment) :
    segment.joined.isSingular = segment.isSingular := by
  match segment with
  | .child _ [] | .child _ (_ :: _ :: _) | .descendant _ _ => rfl
  | .child _ [selector] => exact selector.isSingular_joined

theorem Query.isSingular_joined (query : Query) :
    Query.isSingular (joinedSegments query) = query.isSingular := by
  induction query with
  | nil => rfl
  | cons segment rest ih =>
    unfold Query.isSingular at ih ⊢
    rw [joinedSegments, List.all_cons, List.all_cons, segment.isSingular_joined, ih]

theorem Expr.isSingularQuery_joined (e : Expr) : e.joined.isSingularQuery = e.isSingularQuery := by
  cases e with
  | relative _ segments | absolute _ segments => exact Query.isSingular_joined segments
  | _ => rfl

theorem Expr.resultType?_joined (e : Expr) :
    e.joined.resultType? signatures = e.resultType? signatures := by
  cases e <;> rfl

theorem Expr.fits_joined (e : Expr) (type : ExprType) :
    e.joined.fits signatures type = e.fits signatures type := by
  have hsingular := e.isSingularQuery_joined
  have hresult : e.joined.resultType? signatures = e.resultType? signatures := e.resultType?_joined
  cases type <;> cases e <;> simp_all [Expr.joined, Expr.fits, Expr.isQuery]

end Types

/-! ### Texts without surrogates -/

namespace Grammar

variable {dialect : Dialect} {ts : List Token}

/-- A literal that is written without surrogates has none. -/
theorem Writes.joined_eq {token : Token} {literal : Literal} (h : Writes token literal)
    (hclosed : token.IsClosed) (htoken : ∀ c ∈ token.text.toList, c.IsScalar) :
    literal.joined = literal := by
  cases h with
  | string hkind htext =>
    obtain ⟨quote, hquote⟩ : ∃ quote, Lexer.quoteKind? quote = some token.kind := by
      rcases hkind with hkind | hkind <;> rw [hkind]
      · exact ⟨'\'', rfl⟩
      · exact ⟨'"', rfl⟩
    have hencodes := (Token.literalText_eq_ok_iff_encodes hquote rfl hclosed).1 htext
    exact congrArg Literal.string (Text.joined_eq_self (hencodes.isScalar htoken))
  | integer | decimal | true | false | null => rfl

def Nonterminal.joined : (n : Nonterminal) → n.Tree → n.Tree
  | .query, segs | .segments, segs => joinedSegments segs
  | .segment, seg => seg.joined
  | .shorthand, sels | .bracketed, sels | .selectors, sels => joinedSelectors sels
  | .selector, sel => sel.joined
  | .arguments, given => joinedArguments given
  | .disjunction, e | .conjunction, e | .basic, e | .unary, e | .comparable, e | .literal, e
  | .path, e | .call, e | .argument, e => e.joined

theorem Derives.joined_eq {n : Nonterminal} {tree : n.Tree} (h : Derives dialect n ts tree)
    (hts : ∀ t ∈ ts, t.IsClosed ∧ ∀ c ∈ t.text.toList, c.IsScalar) :
    Nonterminal.joined n tree = tree := by
  induction h with
  | noSegments | emptyCall | member | anyMember | name | wildcard | index | slice => rfl
  | literal h =>
    obtain ⟨hclosed, hscalar⟩ := hts _ List.mem_cons_self
    exact congrArg (Expr.literal _) (h.joined_eq hclosed hscalar)
  | moreSegments _ _ ih ihMore =>
    simp only [List.forall_mem_append] at hts
    exact congrArg₂ List.cons (ih hts.1) (ihMore hts.2)
  | moreSelectors _ _ _ ih ihMore | moreArguments _ _ _ ih ihMore =>
    simp only [List.forall_mem_append, List.forall_mem_cons] at hts
    exact congrArg₂ List.cons (ih hts.1) (ihMore hts.2.2)
  | lastSelector _ ih | lastArgument _ ih => exact congrArg ([·]) (ih hts)
  | disjunction _ _ _ _ _ ih ihRight =>
    simp only [List.forall_mem_append, List.forall_mem_cons] at hts
    exact congrArg₂ (Expr.disjunction _) (ih hts.1) (ihRight hts.2.2)
  | conjunction _ _ _ _ _ ih ihRight =>
    simp only [List.forall_mem_append, List.forall_mem_cons] at hts
    exact congrArg₂ (Expr.conjunction _) (ih hts.1) (ihRight hts.2.2)
  | comparison _ _ _ ih ihRight =>
    simp only [List.forall_mem_append, List.forall_mem_cons] at hts
    exact congrArg₂ (Expr.comparison _ · _ ·) (ih hts.1) (ihRight hts.2.2)
  | call _ _ _ _ _ ih =>
    simp only [List.forall_mem_append, List.forall_mem_cons] at hts
    exact congrArg (Expr.call _ _) (ih hts.2.2.1)
  | bracketed _ _ _ ih | group _ _ _ _ ih =>
    simp only [List.forall_mem_append, List.forall_mem_cons] at hts
    exact ih hts.2.1
  | filter _ _ _ ih => exact congrArg (Selector.filter _) (ih (List.forall_mem_cons.1 hts).2)
  | negation _ _ _ ih => exact congrArg (Expr.negation _) (ih (List.forall_mem_cons.1 hts).2)
  | absolute _ _ ih => exact congrArg (Expr.absolute _) (ih (List.forall_mem_cons.1 hts).2)
  | relative _ _ ih => exact congrArg (Expr.relative _) (ih (List.forall_mem_cons.1 hts).2)
  | child _ _ ih => exact congrArg (Segment.child _) (ih (List.forall_mem_cons.1 hts).2)
  | childBracketed _ ih => exact congrArg (Segment.child _) (ih hts)
  | descendant _ _ ih | descendantBracketed _ _ ih =>
    exact congrArg (Segment.descendant _) (ih (List.forall_mem_cons.1 hts).2)
  | query _ _ ih => exact ih (List.forall_mem_cons.1 hts).2
  | oneConjunction _ ih | oneBasic _ ih | oneUnary _ ih | unaryPath _ ih | unaryCall _ ih
  | comparableLiteral _ ih | comparablePath _ _ ih | comparableCall _ _ ih | literalArgument _ ih
  | logicalArgument _ ih => exact ih hts

end Grammar

/-- In the query of a text without surrogates there is nothing to join. -/
theorem Query.joined_eq_self {dialect : Dialect} {text : Text} {query : Query}
    (h : Query.ofText dialect text = .ok query) (htext : ∀ c ∈ text.toList, c.IsScalar) :
    joinedSegments query = query := by
  obtain ⟨ts, final, htokens, hderives⟩ := Grammar.ofText_eq_ok_iff.1 h
  have hclosed := Token.isClosed_of_ofQuery htokens
  have hstands := (tokenizes_of_ofQuery htokens).2.standsIn (isRest_query text)
  refine hderives.joined_eq fun t ht => ⟨hclosed t (List.mem_append_left _ ht), fun c hc => ?_⟩
  have hextract := (hstands t (List.mem_append_left _ ht)).1.extract_eq
  have hmem : c ∈ text.toList.extract t.start t.stop := hextract ▸ Token.mem_written hc
  exact htext c (List.mem_of_mem_drop (List.mem_of_mem_take hmem))

end JsonPath
