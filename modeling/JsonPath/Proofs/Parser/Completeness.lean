import JsonPath.Proofs.Parser.Leaves

/-!
# The parser accepts what the grammar derives

A derived token sequence is read off the front of any stream that does not go on with it. For
expressions this is said with the operators that may still follow: to read the tokens of a
conjunction at a level that it binds more tightly than is to go on with the operators after it.
The level decides which operators those are, so the layers of the grammar need no other treatment.
-/

namespace JsonPath

namespace Stream

/-- The stream with tokens before it. -/
def prepend (ts : List Token) (s : Stream) : Stream := { s with ahead := ts ++ s.ahead }

variable {s : Stream} {t : Token} {ts us : List Token}

@[simp]
theorem prepend_nil : s.prepend [] = s := rfl

@[simp]
theorem peek_prepend_cons : (s.prepend (t :: ts)).peek = t := rfl

@[simp]
theorem advance_prepend_cons : (s.prepend (t :: ts)).advance = s.prepend ts := rfl

@[simp]
theorem prepend_append : s.prepend (ts ++ us) = (s.prepend us).prepend ts := by
  simp [prepend, List.append_assoc]

/-- The next token is none that a query could go on with. -/
def EndsPath (s : Stream) : Prop :=
  s.peek.kind ≠ .dot ∧ s.peek.kind ≠ .doubleDot ∧ s.peek.kind ≠ .openSquare

/-- The next token is none that an operand could go on with, nor a comparison operator. -/
def EndsOperand (s : Stream) : Prop :=
  s.EndsPath ∧ Parser.comparison? s.peek.kind = none

/-- The next token separates or closes the items of a list, or closes a group. -/
def EndsItem (s : Stream) : Prop :=
  s.peek.kind = .comma ∨ s.peek.kind = .closeSquare ∨ s.peek.kind = .closeParen

theorem EndsItem.ne (h : s.EndsItem) {kind : TokenKind}
    (hkind : kind ∉ [TokenKind.comma, .closeSquare, .closeParen]) : s.peek.kind ≠ kind := by
  rintro rfl
  exact hkind (by simpa [EndsItem] using h)

theorem EndsItem.endsOperand (h : s.EndsItem) : s.EndsOperand := by
  rcases h with h | h | h <;> simp [EndsOperand, EndsPath, h, Parser.comparison?]

theorem endsPath_of_binds {level : Parser.Level} (h : Parser.binds s.peek.kind level = true) :
    s.EndsPath := by
  unfold EndsPath
  generalize s.peek.kind = kind at h
  refine ⟨?_, ?_, ?_⟩ <;> rintro rfl <;> cases h

theorem endsOperand_of_binds {level : Parser.Level} (h : Parser.binds s.peek.kind level = true)
    (hnone : Parser.comparison? s.peek.kind = none) : s.EndsOperand :=
  ⟨endsPath_of_binds h, hnone⟩

end Stream

namespace Parser

variable {dialect : Dialect} {s rest : Stream} {level : Level} {kind : TokenKind}

/-! ### Which operators go on -/

theorem binds_of_comparison? {comparison : Comparison} (h : comparison? kind = some comparison)
    (hlevel : level.rank < Level.relation.rank) : binds kind level = true := by
  have hsome : (comparison? kind).isSome := by simp [h]
  unfold binds level?
  split
  · cases h
  · cases h
  · simp [hsome, hlevel]

theorem binds_conjunction (hlevel : level.rank < Level.conjunction.rank) :
    binds .conjunction level = true := by simp [binds, level?, hlevel]

theorem binds_disjunction (hlevel : level.rank < Level.disjunction.rank) :
    binds .disjunction level = true := by simp [binds, level?, hlevel]

theorem not_binds_unary : binds kind .unary = false := by cases kind <;> rfl

theorem not_binds_relation : binds kind .relation = false := by cases kind <;> rfl

theorem not_binds_conjunction (h : comparison? kind = none) : binds kind .conjunction = false := by
  cases kind <;> first | rfl | cases h

theorem not_binds_disjunction (h : comparison? kind = none) (hand : kind ≠ .conjunction) :
    binds kind .disjunction = false := by
  cases kind <;> first | exact absurd rfl hand | rfl | cases h

theorem not_binds_lowest_of_endsItem (h : s.EndsItem) : binds s.peek.kind .lowest = false := by
  rcases h with h | h | h <;> rw [h] <;> rfl

/-! ### Expressions whose first operand is known -/

theorem reads_expression_of_operand {s' : Stream} {first item : Expr}
    (h : Reads (operand dialect s) first s') :
    Reads (expression dialect level s) item rest ↔
      Reads (operations dialect level (s.peek.kind == .openParen) first s') item rest := by
  rw [reads_expression_iff]
  constructor
  · rintro ⟨_, _, hfirst, hitem⟩
    obtain ⟨rfl, rfl⟩ := hfirst.unique h
    exact hitem
  · exact fun hitem => ⟨first, s', h, hitem⟩

/-- That an operand stands in parentheses matters to comparison operators only. -/
theorem reads_operations_grouped (h : comparison? s.peek.kind = none) {grouped : Bool}
    {left item : Expr} :
    Reads (operations dialect level grouped left s) item rest ↔
      Reads (operations dialect level false left s) item rest := by
  rw [reads_operations_iff, reads_operations_iff]
  simp [h]

theorem reads_operations_of_operation {s' : Stream} {left next item : Expr}
    (hbinds : binds s.peek.kind level = true)
    (h : Reads (operation dialect left s.peek s.advance) next s') :
    Reads (operations dialect level false left s) item rest ↔
      Reads (operations dialect level false next s') item rest := by
  rw [reads_operations_iff]
  constructor
  · rintro (⟨-, -, _, _, hnext, hitem⟩ | ⟨hstop, -⟩)
    · obtain ⟨rfl, rfl⟩ := hnext.unique h
      exact hitem
    · rw [hbinds] at hstop
      cases hstop
  · exact fun hitem => .inl ⟨hbinds, by simp, next, s', h, hitem⟩

theorem reads_operations_stop (h : binds s.peek.kind level = false) {grouped : Bool} {e : Expr} :
    Reads (operations dialect level grouped e s) e s :=
  reads_operations_iff.2 (.inr ⟨h, rfl, rfl⟩)

end Parser

namespace Grammar

open JsonPath.Parser

variable {dialect : Dialect}

/-- The kinds of tokens that a derivation can start with. Nothing else can be empty but the
segments. -/
def first : Nonterminal → List TokenKind
  | .query => [.root]
  | .segments => []
  | .segment => [.dot, .doubleDot, .openSquare]
  | .shorthand => [.name, .wildcard]
  | .bracketed => [.openSquare]
  | .selectors | .selector => [.singleQuoted, .doubleQuoted, .wildcard, .integer, .colon, .filter]
  | .literal => [.singleQuoted, .doubleQuoted, .integer, .decimal, .trueWord, .falseWord, .nullWord]
  | .path => [.root, .current]
  | .call => [.function]
  | .comparable => [.singleQuoted, .doubleQuoted, .integer, .decimal, .trueWord, .falseWord,
      .nullWord, .root, .current, .function]
  | .unary => [.negation, .openParen, .root, .current, .function]
  | _ => [.singleQuoted, .doubleQuoted, .integer, .decimal, .trueWord, .falseWord, .nullWord,
      .root, .current, .function, .negation, .openParen]

theorem Writes.kind_mem {token : Token} {literal : Literal} (h : Writes token literal) :
    token.kind ∈ first .literal := by
  cases h with
  | string hkind => rcases hkind with hkind | hkind <;> rw [hkind] <;> decide
  | integer hkind | decimal hkind | true hkind | false hkind | null hkind =>
    rw [hkind]
    decide

theorem ne_of_mem_first {n : Nonterminal} {token : Token} {kind : TokenKind}
    (h : token.kind ∈ first n) (hkind : kind ∉ first n) : token.kind ≠ kind := by
  rintro rfl
  exact hkind h

theorem mem_first_of_subset {n n' : Nonterminal} {kind : TokenKind} (h : first n ⊆ first n')
    (hkind : kind ∈ first n) : kind ∈ first n' := h hkind

/-- A derivation starts with a token of one of these kinds. -/
theorem Derives.first_mem {n : Nonterminal} {ts : List Token} {tree : n.Tree}
    (h : Derives dialect n ts tree) (hn : n ≠ .segments) :
    ∃ t us, ts = t :: us ∧ t.kind ∈ first n := by
  induction h with
  | noSegments | moreSegments => exact absurd rfl hn
  | query h | child h | descendant h | descendantBracketed h | member h | anyMember h
  | bracketed h | wildcard h | filter h | negation h | group h | absolute h | relative h
  | emptyCall h | call h => exact ⟨_, _, rfl, by simp [first, h]⟩
  | name h => exact ⟨_, _, rfl, by rcases h with h | h <;> simp [first, h]⟩
  | index h => exact ⟨_, _, rfl, by simp [first, h.kind]⟩
  | slice hstart hcolon =>
    cases hstart with
    | absent => exact ⟨_, _, rfl, by simp [first, hcolon]⟩
    | present h => exact ⟨_, _, rfl, by simp [first, h.kind]⟩
  | literal h => exact ⟨_, _, rfl, h.kind_mem⟩
  | childBracketed _ ih =>
    obtain ⟨t, us, heq, hmem⟩ := ih (by decide)
    cases heq
    exact ⟨_, _, rfl, by simp_all [first]⟩
  | lastSelector _ ih | oneConjunction _ ih | oneBasic _ ih | oneUnary _ ih | unaryPath _ ih
  | unaryCall _ ih | comparableLiteral _ ih | comparablePath _ _ ih | comparableCall _ _ ih
  | lastArgument _ ih | literalArgument _ ih | logicalArgument _ ih =>
    obtain ⟨t, us, rfl, hmem⟩ := ih (by decide)
    exact ⟨t, us, rfl, mem_first_of_subset (by decide) hmem⟩
  | moreSelectors _ _ _ ih | disjunction _ _ _ _ _ ih | conjunction _ _ _ _ _ ih
  | comparison _ _ _ ih | moreArguments _ _ _ ih =>
    obtain ⟨t, us, rfl, hmem⟩ := ih (by decide)
    exact ⟨t, us ++ _, rfl, mem_first_of_subset (by decide) hmem⟩

theorem Derives.not_isLiteral {n : Nonterminal} {ts : List Token} {tree : n.Tree}
    (h : Derives dialect n ts tree) : match n, tree with
      | .disjunction, e | .conjunction, e | .basic, e | .unary, e | .path, e | .call, e =>
        ¬ e.IsLiteral
      | _, _ => True := by
  induction h with
  | oneConjunction _ ih | oneBasic _ ih | oneUnary _ ih | group _ _ _ _ ih | unaryPath _ ih
  | unaryCall _ ih => exact ih
  | disjunction | conjunction | comparison | negation | absolute | relative | emptyCall | call =>
    rintro ⟨_, _, heq⟩
    cases heq
  | _ => trivial

/-- What a derivation does not start with is not next where its tokens stand. -/
theorem Derives.peek_ne {n : Nonterminal} {ts : List Token} {tree : n.Tree}
    (h : Derives dialect n ts tree) (hn : n ≠ .segments) {kind : TokenKind}
    (hkind : kind ∉ first n) (s : Stream) : (s.prepend ts).peek.kind ≠ kind := by
  obtain ⟨t, us, rfl, hmem⟩ := h.first_mem hn
  exact ne_of_mem_first hmem hkind

theorem Derives.checkComparable_eq_ok {ts : List Token} {e : Expr}
    (h : Derives dialect .comparable ts e) : e.checkComparable dialect.signatures = .ok () := by
  rw [Expr.checkComparable_eq_ok_iff]
  cases h with
  | comparableLiteral h =>
    cases h
    exact .inl ⟨_, _, rfl⟩
  | comparablePath _ hsingular => exact .inr (.inl hsingular)
  | comparableCall _ hvalue => exact .inr (.inr hvalue)

/-- What the parser makes of tokens before a stream. Expressions are read with the operators that
follow them, at any level that theirs binds more tightly than. -/
def Accepted (dialect : Dialect) : (n : Nonterminal) → List Token → n.Tree → Prop
  | .query, ts, q => ∀ s : Stream, s.peek.kind = .endOfQuery →
      Parser.query dialect (s.prepend ts) = .ok q
  | .segments, ts, segs => ∀ s : Stream, s.EndsPath →
      Reads (segments dialect (s.prepend ts)) segs s
  | .segment, ts, seg => ∀ (s rest : Stream) (more : List Segment),
      Reads (segments dialect s) more rest →
      Reads (segments dialect (s.prepend ts)) (seg :: more) rest
  | .shorthand, ts, sels => ∀ (s : Stream) (dots : Token),
      Reads (dotted dialect dots (s.prepend ts)) sels s
  | .bracketed, ts, sels => ∀ s : Stream, ∃ h,
      Reads (bracketed dialect (s.prepend ts) h) sels s
  | .selectors, ts, sels => ∀ s : Stream, s.peek.kind = .closeSquare →
      Reads (selectors dialect (s.prepend ts)) sels s.advance
  | .selector, ts, sel => ∀ s : Stream, s.EndsItem →
      Reads (selector dialect (s.prepend ts)) sel s
  | .disjunction, ts, e => ∀ (s rest : Stream) (level : Level) (item : Expr), s.EndsOperand →
      s.peek.kind ≠ .conjunction → level.rank < Level.disjunction.rank →
      (Reads (expression dialect level (s.prepend ts)) item rest ↔
        Reads (operations dialect level false e s) item rest)
  | .conjunction, ts, e => ∀ (s rest : Stream) (level : Level) (item : Expr), s.EndsOperand →
      level.rank < Level.conjunction.rank →
      (Reads (expression dialect level (s.prepend ts)) item rest ↔
        Reads (operations dialect level false e s) item rest)
  | .basic, ts, e => ∀ (s rest : Stream) (level : Level) (item : Expr), s.EndsOperand →
      level.rank < Level.relation.rank →
      (Reads (expression dialect level (s.prepend ts)) item rest ↔
        Reads (operations dialect level false e s) item rest)
  | .unary, ts, e | .comparable, ts, e | .path, ts, e => ∀ s : Stream, s.EndsPath →
      Reads (operand dialect (s.prepend ts)) e s
  | .literal, ts, e | .call, ts, e => ∀ s : Stream, Reads (operand dialect (s.prepend ts)) e s
  | .arguments, ts, given => ∀ s : Stream, s.peek.kind = .closeParen →
      Reads (arguments dialect (s.prepend ts)) given s.advance
  | .argument, ts, e => ∀ s : Stream, s.EndsItem →
      Reads (expression dialect .lowest (s.prepend ts)) e s

/-! ### Leaves -/

variable {s : Stream} {ts us : List Token} {e : Expr}

theorem Index.index_eq_ok {token : Token} {i : Int} (h : Index dialect token i) :
    index dialect token = .ok i := by
  obtain ⟨n, hspells, hinteger, hlength, hvalue⟩ := h.spelled
  exact (index_eq_ok_iff hspells hinteger).2 ⟨h.plain, hlength, hvalue, h.least, h.greatest⟩

theorem Writes.reads_operand {token : Token} {literal : Literal} (h : Writes token literal) :
    Reads (operand dialect (s.prepend [token])) (.literal token literal) s := by
  rw [reads_operand_iff]
  cases h with
  | string hkind htext => simp_all
  | integer hkind hzero hspells hinteger hlength =>
    have hnumber := (number_eq_ok_iff_of_integer hspells hinteger hkind).2 ⟨hzero, hlength, rfl⟩
    simp [hkind, hnumber]
  | decimal hkind hzero hspells =>
    have hnumber := (number_eq_ok_iff_of_decimal hspells hkind).2 ⟨hzero, rfl⟩
    simp [hkind, hnumber]
  | true hkind | false hkind | null hkind => simp [hkind]

theorem Bound.reads_optionalIndex {i? : Option Int} (h : Bound dialect ts i?)
    (hnext : s.peek.kind ≠ .integer) : Reads (optionalIndex dialect (s.prepend ts)) i? s := by
  rw [reads_optionalIndex_iff]
  cases h with
  | absent => exact .inr ⟨hnext, rfl, rfl⟩
  | present h => exact .inl ⟨h.kind, _, h.index_eq_ok, rfl, rfl⟩

theorem Bound.reads_sliceRest {stop? step? : Option Int} (hstop : Bound dialect ts stop?)
    (hstep : Stride dialect us step?) (hnext : s.EndsItem) (token : Token) (start? : Option Int) :
    Reads (sliceRest dialect token start? (s.prepend (ts ++ us)))
      (.slice token start? stop? step?) s := by
  have hinteger : s.peek.kind ≠ .integer := hnext.ne (by decide)
  have hcolon : s.peek.kind ≠ .colon := hnext.ne (by decide)
  rw [Stream.prepend_append, reads_sliceRest_iff]
  cases hstep with
  | absent => exact ⟨stop?, s, hstop.reads_optionalIndex hinteger, .inr ⟨hcolon, rfl, rfl⟩⟩
  | present hkind hbound =>
    exact ⟨stop?, _, hstop.reads_optionalIndex (by simp [hkind]),
      .inl ⟨hkind, step?, hbound.reads_optionalIndex hinteger, rfl⟩⟩

/-! ### Productions of several parts

What a production is read as, from what its parts are read as. The first token of a list is known
not to be the one that would close it, since no derivation starts with that. -/

variable {left right : Expr}

theorem Accepted.bracketed {opening closing : Token} {sels : List Selector}
    (hopen : opening.kind = .openSquare) (hsels : Derives dialect .selectors ts sels)
    (hclose : closing.kind = .closeSquare) (h : Accepted dialect .selectors ts sels) :
    Accepted dialect .bracketed (opening :: (ts ++ [closing])) sels := by
  intro s
  have hpeek : (s.prepend (opening :: (ts ++ [closing]))).peek.kind = .openSquare := hopen
  have hne : ((s.prepend [closing]).prepend ts).peek.kind ≠ .closeSquare :=
    hsels.peek_ne (by decide) (by decide) _
  refine ⟨hpeek, ?_⟩
  rw [reads_bracketed_iff, Stream.advance_prepend_cons, Stream.prepend_append]
  exact ⟨hne, h (s.prepend [closing]) hclose⟩

theorem Accepted.moreSelectors {comma : Token} {sel : Selector} {sels : List Selector}
    (hcomma : comma.kind = .comma) (hsels : Derives dialect .selectors us sels)
    (h : Accepted dialect .selector ts sel) (hmore : Accepted dialect .selectors us sels) :
    Accepted dialect .selectors (ts ++ comma :: us) (sel :: sels) := by
  intro s hs
  have hne : (s.prepend us).peek.kind ≠ .closeSquare := hsels.peek_ne (by decide) (by decide) s
  rw [Stream.prepend_append, reads_selectors_iff]
  exact ⟨sel, _, h _ (.inl hcomma), .inr ⟨hcomma, hne, sels, hmore s hs, rfl⟩⟩

theorem Accepted.slice {vs : List Token} {colon : Token} {start? stop? step? : Option Int}
    (hstart : Bound dialect ts start?) (hcolon : colon.kind = .colon)
    (hstop : Bound dialect us stop?) (hstep : Stride dialect vs step?) :
    Accepted dialect .selector (ts ++ colon :: (us ++ vs))
      (.slice (ts.headD colon) start? stop? step?) := by
  intro s hs
  have hrest (token : Token) (start? : Option Int) := hstop.reads_sliceRest hstep hs token start?
  rw [reads_selector_iff]
  cases hstart with
  | absent => exact .inr (.inr (.inl ⟨hcolon, hrest _ _⟩))
  | present h => exact .inl ⟨h.kind, _, h.index_eq_ok, .inl ⟨hcolon, hrest _ _⟩⟩

/-- A whole logical expression is read up to what separates or closes it. -/
theorem reads_item_of_disjunction (h : Accepted dialect .disjunction ts e) (s : Stream)
    (hs : s.EndsItem) : Reads (expression dialect .lowest (s.prepend ts)) e s := by
  have hand : s.peek.kind ≠ .conjunction := hs.ne (by decide)
  rw [h s s .lowest e hs.endsOperand hand (by decide)]
  exact reads_operations_stop (not_binds_lowest_of_endsItem hs)

theorem Accepted.disjunction {or : Token} (hor : or.kind = .disjunction)
    (hleft : left.checkTest dialect.signatures = .ok ())
    (hright : right.checkTest dialect.signatures = .ok ())
    (h : Accepted dialect .disjunction ts left) (h' : Accepted dialect .conjunction us right) :
    Accepted dialect .disjunction (ts ++ or :: us) (.disjunction or left right) := by
  intro s rest level item hs hand hlevel
  have hbinds : binds (s.prepend (or :: us)).peek.kind level = true := by
    simpa [hor] using binds_disjunction hlevel
  have hends := Stream.endsOperand_of_binds hbinds (by simp [hor, comparison?])
  have hread : Reads (expression dialect .disjunction (s.prepend us)) right s :=
    (h' s s .disjunction right hs (by decide)).2
      (reads_operations_stop (not_binds_disjunction hs.2 hand))
  have hjoined : Reads (operation dialect left or (s.prepend us)) (.disjunction or left right) s :=
    reads_operation_iff.2 (.inr (by simp [hor, comparison?, hleft, hright, hread]))
  rw [Stream.prepend_append, h _ rest level item hends (by simp [hor]) hlevel]
  exact reads_operations_of_operation hbinds hjoined

theorem Accepted.conjunction {and : Token} (hand : and.kind = .conjunction)
    (hleft : left.checkTest dialect.signatures = .ok ())
    (hright : right.checkTest dialect.signatures = .ok ())
    (h : Accepted dialect .conjunction ts left) (h' : Accepted dialect .basic us right) :
    Accepted dialect .conjunction (ts ++ and :: us) (.conjunction and left right) := by
  intro s rest level item hs hlevel
  have hbinds : binds (s.prepend (and :: us)).peek.kind level = true := by
    simpa [hand] using binds_conjunction hlevel
  have hends := Stream.endsOperand_of_binds hbinds (by simp [hand, comparison?])
  have hread : Reads (expression dialect .conjunction (s.prepend us)) right s :=
    (h' s s .conjunction right hs (by decide)).2
      (reads_operations_stop (not_binds_conjunction hs.2))
  have hjoined : Reads (operation dialect left and (s.prepend us)) (.conjunction and left right)
      s := reads_operation_iff.2 (.inr (by simp [hand, comparison?, hleft, hright, hread]))
  rw [Stream.prepend_append, h _ rest level item hends hlevel]
  exact reads_operations_of_operation hbinds hjoined

theorem Accepted.comparison {operator : Token} {comparison : Comparison}
    (hoperator : comparison? operator.kind = some comparison)
    (hleft : Derives dialect .comparable ts left) (hright : Derives dialect .comparable us right)
    (h : Accepted dialect .comparable ts left) (h' : Accepted dialect .comparable us right) :
    Accepted dialect .basic (ts ++ operator :: us)
      (.comparison operator left comparison right) := by
  intro s rest level item hs hlevel
  have hbinds : binds (s.prepend (operator :: us)).peek.kind level = true :=
    binds_of_comparison? hoperator hlevel
  have hends := Stream.endsPath_of_binds hbinds
  have hopen : ((s.prepend (operator :: us)).prepend ts).peek.kind ≠ .openParen :=
    hleft.peek_ne (by decide) (by decide) _
  have hopen' : (s.prepend us).peek.kind ≠ .openParen := hright.peek_ne (by decide) (by decide) s
  have hread : Reads (expression dialect .relation (s.prepend us)) right s :=
    (reads_expression_of_operand (h' s hs.1)).2 (reads_operations_stop not_binds_relation)
  have hcompared : Reads (operation dialect left operator (s.prepend us))
      (.comparison operator left comparison right) s :=
    reads_operation_iff.2 (.inl ⟨comparison, hoperator, hopen', right, hread,
      hleft.checkComparable_eq_ok, hright.checkComparable_eq_ok, rfl⟩)
  rw [Stream.prepend_append, reads_expression_of_operand (h _ hends), beq_eq_false_iff_ne.2 hopen]
  exact reads_operations_of_operation hbinds hcompared

theorem Accepted.negation {not : Token} (hnot : not.kind = .negation)
    (hcheck : e.checkTest dialect.signatures = .ok ()) (h : Accepted dialect .unary ts e) :
    Accepted dialect .unary (not :: ts) (.negation not e) := by
  intro s hs
  have hread : Reads (expression dialect .unary (s.prepend ts)) e s :=
    (reads_expression_of_operand (h s hs)).2 (reads_operations_stop not_binds_unary)
  rw [reads_operand_iff]
  simp_all

theorem Accepted.group {opening closing : Token} (hopen : opening.kind = .openParen)
    (hcheck : e.checkTest dialect.signatures = .ok ()) (hclose : closing.kind = .closeParen)
    (h : Accepted dialect .disjunction ts e) :
    Accepted dialect .unary (opening :: (ts ++ [closing])) e := by
  intro s _
  have hread := reads_item_of_disjunction h (s.prepend [closing]) (.inr (.inr hclose))
  have hkind : (s.prepend (opening :: (ts ++ [closing]))).peek.kind = .openParen := hopen
  rw [reads_operand_iff]
  refine .inr (.inr (.inr (.inr (.inr (.inr (.inl ⟨hkind, s.prepend [closing], ?_⟩))))))
  rw [Stream.advance_prepend_cons, Stream.prepend_append]
  exact ⟨hread, hclose, hcheck, rfl⟩

theorem Accepted.call {function opening closing : Token} {given : List Expr}
    (hfunction : function.kind = .function) (hopen : opening.kind = .openParen)
    (hgiven : Derives dialect .arguments ts given) (hclose : closing.kind = .closeParen)
    (hdeclared : Declared dialect.signatures function.text given)
    (h : Accepted dialect .arguments ts given) :
    Accepted dialect .call (function :: opening :: (ts ++ [closing]))
      (.call function function.text given) := by
  intro s
  have hne : ((s.prepend [closing]).prepend ts).peek.kind ≠ .closeParen :=
    hgiven.peek_ne (by decide) (by decide) _
  have hread := h (s.prepend [closing]) hclose
  rw [← Stream.prepend_append] at hne hread
  rw [reads_operand_iff]
  simp only [Stream.peek_prepend_cons, hfunction, Stream.advance_prepend_cons, reads_call_iff,
    hopen]
  simp_all [checkCall_eq_ok_iff]

theorem Accepted.moreArguments {comma : Token} {given : List Expr} (hcomma : comma.kind = .comma)
    (hgiven : Derives dialect .arguments us given) (h : Accepted dialect .argument ts e)
    (hmore : Accepted dialect .arguments us given) :
    Accepted dialect .arguments (ts ++ comma :: us) (e :: given) := by
  intro s hs
  have hne : (s.prepend us).peek.kind ≠ .closeParen := hgiven.peek_ne (by decide) (by decide) s
  rw [Stream.prepend_append, reads_arguments_iff]
  exact ⟨e, _, h _ (.inl hcomma), .inr ⟨hcomma, hne, given, hmore s hs, rfl⟩⟩

/-! ### Derivations -/

/-- The parser reads the tokens of a derivation, and makes its tree of them. -/
theorem Derives.accepted {n : Nonterminal} {ts : List Token} {tree : n.Tree}
    (h : Derives dialect n ts tree) : Accepted dialect n ts tree := by
  have checked {e : Expr} (hliteral : ¬ e.IsLiteral)
      (htest : IsTest dialect.signatures e) : e.checkTest dialect.signatures = .ok () :=
    Expr.checkTest_eq_ok_iff.2 ⟨hliteral, htest⟩
  induction h with
  | query hroot _ ih =>
    intro s hend
    rw [query_eq_ok_iff]
    exact ⟨hroot, s, ih s (by simp [Stream.EndsPath, hend]), hend⟩
  | noSegments =>
    intro s hs
    rw [reads_segments_iff]
    exact .inr (.inr (.inr ⟨hs.2.1, hs.1, hs.2.2, rfl, rfl⟩))
  | moreSegments _ _ ih ihMore =>
    intro s hs
    rw [Stream.prepend_append]
    exact ih _ s _ (ihMore s hs)
  | child hdot _ ih =>
    intro s rest more hmore
    rw [reads_segments_iff]
    exact .inr (.inl ⟨hdot, _, s, more, ih s _, hmore, rfl⟩)
  | descendant hdots _ ih =>
    intro s rest more hmore
    rw [reads_segments_iff]
    exact .inl ⟨hdots, _, s, more, ih s _, hmore, rfl⟩
  | childBracketed _ ih =>
    intro s rest more hmore
    obtain ⟨hopen, hread⟩ := ih s
    rw [reads_segments_iff]
    exact .inr (.inr (.inl ⟨hopen, _, s, more, hread, hmore, rfl⟩))
  | descendantBracketed hdots _ ih =>
    intro s rest more hmore
    obtain ⟨hopen, hread⟩ := ih s
    rw [reads_segments_iff]
    exact .inl ⟨hdots, _, s, more, reads_dotted_iff.2 (.inr (.inr ⟨hopen, hread⟩)), hmore, rfl⟩
  | member hname =>
    intro s dots
    rw [reads_dotted_iff]
    exact .inl ⟨hname, rfl, rfl⟩
  | anyMember hwild =>
    intro s dots
    rw [reads_dotted_iff]
    exact .inr (.inl ⟨hwild, rfl, rfl⟩)
  | bracketed hopen hsels hclose ih => exact .bracketed hopen hsels hclose ih
  | lastSelector _ ih =>
    intro s hs
    rw [reads_selectors_iff]
    exact ⟨_, s, ih s (.inr (.inl hs)), .inl ⟨hs, rfl, rfl⟩⟩
  | moreSelectors _ hcomma hsels ih ihMore => exact .moreSelectors hcomma hsels ih ihMore
  | name hkind htext =>
    intro s _
    rw [reads_selector_iff]
    exact .inr (.inl ⟨hkind, _, htext, rfl, rfl⟩)
  | wildcard hwild =>
    intro s _
    rw [reads_selector_iff]
    exact .inr (.inr (.inr (.inl ⟨hwild, rfl, rfl⟩)))
  | index hindex =>
    intro s hs
    have hcolon : s.peek.kind ≠ .colon := hs.ne (by decide)
    rw [reads_selector_iff]
    exact .inl ⟨hindex.kind, _, hindex.index_eq_ok, .inr ⟨hcolon, rfl, rfl⟩⟩
  | slice hstart hcolon hstop hstep => exact .slice hstart hcolon hstop hstep
  | filter hmark he htest ih =>
    intro s hs
    have hread := reads_item_of_disjunction ih s hs
    rw [reads_selector_iff]
    exact .inr (.inr (.inr (.inr ⟨hmark, _, hread, checked he.not_isLiteral htest, rfl⟩)))
  | oneConjunction _ ih =>
    intro s rest level item hs _ hlevel
    exact ih s rest level item hs (Nat.lt_succ_of_lt hlevel)
  | disjunction hleft hor hright htest htest' ih ih' =>
    exact .disjunction hor (checked hleft.not_isLiteral htest)
      (checked hright.not_isLiteral htest') ih ih'
  | oneBasic _ ih =>
    intro s rest level item hs hlevel
    exact ih s rest level item hs (Nat.lt_succ_of_lt hlevel)
  | conjunction hleft hand hright htest htest' ih ih' =>
    exact .conjunction hand (checked hleft.not_isLiteral htest)
      (checked hright.not_isLiteral htest') ih ih'
  | oneUnary _ ih =>
    intro s rest level item hs _
    rw [reads_expression_of_operand (ih s hs.1), reads_operations_grouped hs.2]
  | comparison hleft hoperator hright ih ih' => exact .comparison hoperator hleft hright ih ih'
  | negation hnot he htest ih => exact .negation hnot (checked he.not_isLiteral htest) ih
  | group hopen he htest hclose ih =>
    exact .group hopen (checked he.not_isLiteral htest) hclose ih
  | unaryPath _ ih => exact ih
  | unaryCall _ ih => exact fun s _ => ih s
  | comparableLiteral _ ih => exact fun s _ => ih s
  | comparablePath _ _ ih => exact ih
  | comparableCall _ _ ih => exact fun s _ => ih s
  | literal h => exact fun s => h.reads_operand
  | absolute hroot _ ih =>
    intro s hs
    have hread := ih s hs
    rw [reads_operand_iff]
    simp_all
  | relative hcurrent _ ih =>
    intro s hs
    have hread := ih s hs
    rw [reads_operand_iff]
    simp_all
  | emptyCall hfunction hopen hclose hdeclared =>
    intro s
    rw [reads_operand_iff]
    simp [hfunction, hopen, hclose, reads_call_iff, checkCall_eq_ok_iff, hdeclared]
  | call hfunction hopen hgiven hclose hdeclared ih =>
    exact .call hfunction hopen hgiven hclose hdeclared ih
  | lastArgument _ ih =>
    intro s hs
    rw [reads_arguments_iff]
    exact ⟨_, s, ih s (.inr (.inr hs)), .inl ⟨hs, rfl, rfl⟩⟩
  | moreArguments _ hcomma hgiven ih ihMore => exact .moreArguments hcomma hgiven ih ihMore
  | literalArgument _ ih =>
    intro s hs
    rw [reads_expression_of_operand (ih s)]
    exact reads_operations_stop (not_binds_lowest_of_endsItem hs)
  | logicalArgument _ ih => exact reads_item_of_disjunction ih

end Grammar

end JsonPath
