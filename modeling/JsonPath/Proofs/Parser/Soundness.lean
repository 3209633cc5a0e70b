import JsonPath.Proofs.Parser.Completeness
import JsonPath.Proofs.Token.Lexing
import Mathlib.Data.List.Chain

/-!
# What the parser reads is derived

The tokens between a stream and its rest are a derivation of the item that was read. Most of it
follows the calls of the parser. The loop over operators needs to know how far its left operand
came: which layer of the grammar it belongs to, and that the operator after a disjunction is none
that would have been read before it.
-/

namespace JsonPath

/-- A token as the lexer makes it. -/
structure Token.Scanned (token : Token) : Prop where
  notEnd : token.kind ≠ .endOfQuery
  integer : token.kind = .integer → ∃ n : Numeral, n.Spells token.text.toList ∧ n.isInteger
  decimal : token.kind = .decimal → ∃ n : Numeral, n.Spells token.text.toList
  function : token.kind = .function → Lexer.IsFunctionName token.text.toList

/-- Tokens as the lexer makes them. It refuses a bracket after a dot. -/
structure Scanned (ts : List Token) : Prop where
  each : ∀ t ∈ ts, t.Scanned
  dots : List.IsChain (fun a b : Token => a.kind = .dot → b.kind ≠ .openSquare) ts

theorem Scanned.right_of_append {ts us : List Token} (h : Scanned (ts ++ us)) : Scanned us :=
  ⟨fun t ht => h.each t (List.mem_append_right ts ht), h.dots.right_of_append⟩

theorem Scanned.cons {t : Token} {ts : List Token} (h : Scanned ts) (ht : t.Scanned)
    (hdot : t.kind = .dot → ∀ u ∈ ts.head?, u.kind ≠ .openSquare) : Scanned (t :: ts) :=
  ⟨List.forall_mem_cons.2 ⟨ht, h.each⟩, h.dots.cons fun u hu hkind => hdot hkind u hu⟩

theorem Scanned.tail {ts : List Token} (h : Scanned ts) : Scanned ts.tail :=
  ⟨fun t ht => h.each t (List.mem_of_mem_tail ht), h.dots.tail⟩

namespace Stream

variable {s rest : Stream} {ts us : List Token}

theorem prepend_peek (h : s.peek.kind ≠ .endOfQuery) : s.advance.prepend [s.peek] = s := by
  obtain ⟨ahead, final, hfinal⟩ := s
  cases ahead with
  | nil => exact absurd hfinal h
  | cons _ _ => rfl

/-- The tokens between the stream and the rest. -/
theorem eq_prepend_peek_cons (h : s.peek.kind ≠ .endOfQuery)
    (hadvance : s.advance = rest.prepend ts) : s = rest.prepend (s.peek :: ts) := by
  rw [← List.singleton_append, prepend_append, ← hadvance, prepend_peek h]

theorem prepend_trans {s' : Stream} (h : s = s'.prepend ts) (h' : s' = rest.prepend us) :
    s = rest.prepend (ts ++ us) := by
  rw [prepend_append, ← h', h]

theorem peek_mem (h : s.peek.kind ≠ .endOfQuery) : s.peek ∈ s.ahead := by
  obtain ⟨ahead, final, hfinal⟩ := s
  cases ahead with
  | nil => exact absurd hfinal h
  | cons _ _ => exact List.mem_cons_self

theorem scanned_rest (hs : Scanned s.ahead) (h : s = rest.prepend ts) : Scanned rest.ahead := by
  rw [h] at hs
  exact hs.right_of_append

theorem not_openSquare_after_dot (hs : Scanned s.ahead) (hdot : s.peek.kind = .dot) :
    s.advance.peek.kind ≠ .openSquare := by
  obtain ⟨ahead, final, hfinal⟩ := s
  match ahead, hs with
  | [], _ => simp [advance, peek, hfinal]
  | [_], _ => simp [advance, peek, hfinal]
  | _ :: _ :: _, hs => exact (List.isChain_cons_cons.1 hs.dots).1 hdot

end Stream

namespace Grammar

open JsonPath.Parser

variable {dialect : Dialect} {s rest : Stream}

/-- The tokens between a stream and its rest are a derivation. -/
def Derived (dialect : Dialect) (n : Nonterminal) (s rest : Stream) (tree : n.Tree) : Prop :=
  ∃ ts, s = rest.prepend ts ∧ Derives dialect n ts tree

/-- What the operators that bind more tightly than a level make. -/
def DerivesAt (dialect : Dialect) (level : Level) (ts : List Token) (e : Expr) : Prop :=
  match level with
  | .lowest => Derives dialect .disjunction ts e
  | .disjunction => Derives dialect .conjunction ts e
  | .conjunction => Derives dialect .basic ts e
  | .relation => Derives dialect .unary ts e
  | .unary => Derives dialect .unary ts e

/-- An operand. Where it is one of a comparison it must not be grouped, and is checked. -/
inductive DerivesOperand (dialect : Dialect) (grouped : Bool) (ts : List Token) (e : Expr) : Prop
  | literal : Derives dialect .literal ts e → DerivesOperand dialect grouped ts e
  | unary : Derives dialect .unary ts e →
      (grouped = false → e.checkComparable dialect.signatures = .ok () →
        Derives dialect .comparable ts e) → DerivesOperand dialect grouped ts e

/-- What the loop over operators knows of its left operand before an operator of a kind. -/
inductive Ready (dialect : Dialect) (level : Level) (grouped : Bool) (kind : TokenKind)
    (ts : List Token) (e : Expr) : Prop
  | operand : DerivesOperand dialect grouped ts e → Ready dialect level grouped kind ts e
  | comparison : level.rank < Level.relation.rank → Derives dialect .basic ts e →
      e.checkComparable dialect.signatures ≠ .ok () → Ready dialect level grouped kind ts e
  | conjunction : level.rank < Level.conjunction.rank → Derives dialect .conjunction ts e →
      e.checkComparable dialect.signatures ≠ .ok () → Ready dialect level grouped kind ts e
  | disjunction : level.rank < Level.disjunction.rank → Derives dialect .disjunction ts e →
      e.checkComparable dialect.signatures ≠ .ok () → binds kind .disjunction = false →
      Ready dialect level grouped kind ts e

variable {level : Level} {grouped : Bool} {kind : TokenKind} {ts us : List Token}
  {e left right : Expr}

theorem Derives.at_of_unary (h : Derives dialect .unary ts e) : DerivesAt dialect level ts e := by
  cases level with
  | lowest => exact .oneConjunction (.oneBasic (.oneUnary h))
  | disjunction => exact .oneBasic (.oneUnary h)
  | conjunction => exact .oneUnary h
  | relation => exact h
  | unary => exact h

theorem DerivesOperand.comparable (h : DerivesOperand dialect grouped ts e)
    (hgrouped : grouped = false) (hcheck : e.checkComparable dialect.signatures = .ok ()) :
    Derives dialect .comparable ts e := by
  cases h with
  | literal h => exact .comparableLiteral h
  | unary _ h => exact h hgrouped hcheck

namespace Ready

/-- Where no operator follows, the left operand is what its level makes, or a literal. -/
theorem derived (h : Ready dialect level grouped kind ts e) :
    Derives dialect .literal ts e ∨ DerivesAt dialect level ts e := by
  cases h with
  | operand h =>
    cases h with
    | literal h => exact .inl h
    | unary h => exact .inr h.at_of_unary
  | comparison hlevel h =>
    right
    cases level with
    | lowest => exact .oneConjunction (.oneBasic h)
    | disjunction => exact .oneBasic h
    | conjunction => exact h
    | relation | unary => exact absurd hlevel (by decide)
  | conjunction hlevel h =>
    right
    cases level with
    | lowest => exact .oneConjunction h
    | disjunction => exact h
    | conjunction | relation | unary => exact absurd hlevel (by decide)
  | disjunction hlevel h =>
    right
    cases level with
    | lowest => exact h
    | disjunction | conjunction | relation | unary => exact absurd hlevel (by decide)

theorem comparable (h : Ready dialect level grouped kind ts e) (hgrouped : grouped = false)
    (hcheck : e.checkComparable dialect.signatures = .ok ()) :
    Derives dialect .comparable ts e := by
  cases h with
  | operand h => exact h.comparable hgrouped hcheck
  | comparison _ _ hnot | conjunction _ _ hnot | disjunction _ _ hnot => exact absurd hcheck hnot

theorem conjunct (h : Ready dialect level grouped .conjunction ts e) (he : ¬ e.IsLiteral) :
    Derives dialect .conjunction ts e := by
  cases h with
  | operand h =>
    cases h with
    | literal h =>
      cases h
      exact absurd ⟨_, _, rfl⟩ he
    | unary h => exact .oneBasic (.oneUnary h)
  | comparison _ h => exact .oneBasic h
  | conjunction _ h => exact h
  | disjunction _ _ _ hbinds => cases hbinds

theorem disjunct (h : Ready dialect level grouped kind ts e) (he : ¬ e.IsLiteral) :
    Derives dialect .disjunction ts e := by
  cases h with
  | operand h =>
    cases h with
    | literal h =>
      cases h
      exact absurd ⟨_, _, rfl⟩ he
    | unary h => exact .oneConjunction (.oneBasic (.oneUnary h))
  | comparison _ h => exact .oneConjunction (.oneBasic h)
  | conjunction _ h => exact .oneConjunction h
  | disjunction _ h => exact h

end Ready

/-! ### Leaves -/

theorem derives_index (hs : Scanned s.ahead) (hkind : s.peek.kind = .integer) {i : Int}
    (h : index dialect s.peek = .ok i) : Index dialect s.peek i := by
  have hscanned := hs.each _ (Stream.peek_mem (by simp [hkind]))
  obtain ⟨n, hspells, hinteger⟩ := hscanned.integer hkind
  obtain ⟨hzero, hlength, hvalue, hleast, hgreatest⟩ := (index_eq_ok_iff hspells hinteger).1 h
  exact ⟨hkind, hzero, ⟨n, hspells, hinteger, hlength, hvalue⟩, hleast, hgreatest⟩

theorem derives_number (hs : Scanned s.ahead)
    (hkind : s.peek.kind = .integer ∨ s.peek.kind = .decimal) {number : Number}
    (h : Parser.number s.peek = .ok number) : Writes s.peek (.number number) := by
  have hscanned := hs.each _ (Stream.peek_mem (by rcases hkind with h | h <;> simp [h]))
  rcases hkind with hkind | hkind
  · obtain ⟨n, hspells, hinteger⟩ := hscanned.integer hkind
    obtain ⟨hzero, hlength, rfl⟩ := (number_eq_ok_iff_of_integer hspells hinteger hkind).1 h
    exact .integer hkind hzero hspells hinteger hlength
  · obtain ⟨n, hspells⟩ := hscanned.decimal hkind
    obtain ⟨hzero, rfl⟩ := (number_eq_ok_iff_of_decimal hspells hkind).1 h
    exact .decimal hkind hzero hspells

theorem derives_bound (hs : Scanned s.ahead) {i? : Option Int}
    (h : Reads (optionalIndex dialect s) i? rest) :
    ∃ ts, s = rest.prepend ts ∧ Bound dialect ts i? := by
  rw [reads_optionalIndex_iff] at h
  rcases h with ⟨hkind, i, hi, rfl, rfl⟩ | ⟨-, rfl, rfl⟩
  · exact ⟨[s.peek], (Stream.prepend_peek (by simp [hkind])).symm,
      .present (derives_index hs hkind hi)⟩
  · exact ⟨[], rfl, .absent⟩

theorem derives_sliceRest (hs : Scanned s.ahead) {token : Token} {start? : Option Int}
    {sel : Selector} (h : Reads (sliceRest dialect token start? s) sel rest) :
    ∃ ts us stop? step?, s = rest.prepend (ts ++ us) ∧ Bound dialect ts stop? ∧
      Stride dialect us step? ∧ sel = .slice token start? stop? step? := by
  rw [reads_sliceRest_iff] at h
  obtain ⟨stop?, s₁, hstop, ⟨hcolon, step?, hstep, rfl⟩ | ⟨-, rfl, rfl⟩⟩ := h
  · obtain ⟨ts, hts, hbound⟩ := derives_bound hs hstop
    have hs₁ := Stream.scanned_rest hs hts
    obtain ⟨us, hus, hbound'⟩ := derives_bound hs₁.tail hstep
    have heq := Stream.eq_prepend_peek_cons (by simp [hcolon]) hus
    exact ⟨ts, _, stop?, step?, Stream.prepend_trans hts heq, hbound, .present hcolon hbound', rfl⟩
  · obtain ⟨ts, hts, hbound⟩ := derives_bound hs hstop
    exact ⟨ts, [], stop?, none, by rw [List.append_nil, hts], hbound, .absent, rfl⟩

theorem comparable_of_path (h : Derives dialect .path ts e)
    (hcheck : e.checkComparable dialect.signatures = .ok ()) :
    Derives dialect .comparable ts e := by
  rw [Expr.checkComparable_eq_ok_iff] at hcheck
  rcases hcheck with hliteral | hsingular | hvalue
  · exact absurd hliteral h.not_isLiteral
  · exact .comparablePath h hsingular
  · cases h <;> cases hvalue

theorem comparable_of_call (h : Derives dialect .call ts e)
    (hcheck : e.checkComparable dialect.signatures = .ok ()) :
    Derives dialect .comparable ts e := by
  rw [Expr.checkComparable_eq_ok_iff] at hcheck
  rcases hcheck with hliteral | hsingular | hvalue
  · exact absurd hliteral h.not_isLiteral
  · cases h <;> cases hsingular
  · exact .comparableCall h hvalue

/-! ### The loop over operators -/

/-- What is read at a level goes up to an operator that binds no more tightly. -/
theorem not_binds_of_reads_operations {s rest : Stream} {grouped : Bool} {left e : Expr}
    (h : Reads (operations dialect level grouped left s) e rest) :
    binds rest.peek.kind level = false := by
  rw [reads_operations_iff] at h
  rcases h with ⟨hbinds, -, next, s₁, hnext, hmore⟩ | ⟨hstop, rfl, rfl⟩
  · have hlt := Stream.size_advance_lt (ne_endOfQuery_of_binds hbinds)
    have hlt' := hnext.size_lt
    exact not_binds_of_reads_operations hmore
  · exact hstop
termination_by s.size

theorem not_binds_of_reads_expression (h : Reads (expression dialect level s) e rest) :
    binds rest.peek.kind level = false := by
  obtain ⟨first, s₁, -, hmore⟩ := reads_expression_iff.1 h
  exact not_binds_of_reads_operations hmore

theorem not_isLiteral_of_checkTest (h : e.checkTest dialect.signatures = .ok ()) :
    ¬ e.IsLiteral := (Expr.checkTest_eq_ok_iff.1 h).1

/-- Where a test is asked for, a literal is refused. -/
theorem derivesAt_of_checkTest (h : Derives dialect .literal ts e ∨ DerivesAt dialect level ts e)
    (hcheck : e.checkTest dialect.signatures = .ok ()) : DerivesAt dialect level ts e := by
  refine h.resolve_left fun hliteral => ?_
  cases hliteral
  exact not_isLiteral_of_checkTest hcheck ⟨_, _, rfl⟩

theorem isTest_of_checkTest (h : e.checkTest dialect.signatures = .ok ()) :
    IsTest dialect.signatures e := (Expr.checkTest_eq_ok_iff.1 h).2

theorem level?_of_comparison? {comparison : Comparison} (h : comparison? kind = some comparison) :
    level? kind = some .relation := by
  cases kind <;> first | rfl | cases h

theorem kind_of_binds (h : binds kind level = true) (hnone : comparison? kind = none) :
    kind = .conjunction ∨ kind = .disjunction := by
  cases kind <;> first | exact .inl rfl | exact .inr rfl | cases h | cases hnone

mutual

theorem derived_segments {s rest : Stream} (hs : Scanned s.ahead) {segs : List Segment}
    (h : Reads (segments dialect s) segs rest) : Derived dialect .segments s rest segs := by
  rw [reads_segments_iff] at h
  rcases h with ⟨hdots, first, s₁, more, hfirst, hmore, rfl⟩ |
    ⟨hdot, first, s₁, more, hfirst, hmore, rfl⟩ | ⟨hopen, first, s₁, more, hfirst, hmore, rfl⟩ |
    ⟨-, -, -, rfl, rfl⟩
  · have hne : s.peek.kind ≠ .endOfQuery := by simp [hdots]
    have hlt := Stream.size_advance_lt hne
    have hlt' := hfirst.size_lt
    obtain ⟨ts, hts, hsels⟩ := derived_dotted hs.tail hfirst
    have heq := Stream.eq_prepend_peek_cons hne hts
    obtain ⟨us, hus, hsegs⟩ := derived_segments (Stream.scanned_rest hs heq) hmore
    refine ⟨_, Stream.prepend_trans heq hus, .moreSegments ?_ hsegs⟩
    rcases hsels with hsels | ⟨-, hsels⟩
    · exact .descendant hdots hsels
    · exact .descendantBracketed hdots hsels
  · have hne : s.peek.kind ≠ .endOfQuery := by simp [hdot]
    have hlt := Stream.size_advance_lt hne
    have hlt' := hfirst.size_lt
    obtain ⟨ts, hts, hsels⟩ := derived_dotted hs.tail hfirst
    have heq := Stream.eq_prepend_peek_cons hne hts
    obtain ⟨us, hus, hsegs⟩ := derived_segments (Stream.scanned_rest hs heq) hmore
    refine ⟨_, Stream.prepend_trans heq hus, .moreSegments ?_ hsegs⟩
    rcases hsels with hsels | ⟨hopen, -⟩
    · exact .child hdot hsels
    · exact absurd hopen (Stream.not_openSquare_after_dot hs hdot)
  · have hlt := hfirst.size_lt
    obtain ⟨ts, hts, hsels⟩ := derived_bracketed hs hfirst
    obtain ⟨us, hus, hsegs⟩ := derived_segments (Stream.scanned_rest hs hts) hmore
    exact ⟨_, Stream.prepend_trans hts hus, .moreSegments (.childBracketed hsels) hsegs⟩
  · exact ⟨[], rfl, .noSegments⟩
termination_by (s.size, 2)
decreasing_by
  all_goals first
    | (apply Prod.Lex.left; omega)
    | exact Prod.Lex.right _ (by decide)

theorem derived_dotted {s rest : Stream} (hs : Scanned s.ahead) {dots : Token}
    {sels : List Selector} (h : Reads (dotted dialect dots s) sels rest) :
    ∃ ts, s = rest.prepend ts ∧ (Derives dialect .shorthand ts sels ∨
      s.peek.kind = .openSquare ∧ Derives dialect .bracketed ts sels) := by
  rw [reads_dotted_iff] at h
  rcases h with ⟨hname, rfl, rfl⟩ | ⟨hwild, rfl, rfl⟩ | ⟨hopen, h⟩
  · exact ⟨[s.peek], (Stream.prepend_peek (by simp [hname])).symm, .inl (.member hname)⟩
  · exact ⟨[s.peek], (Stream.prepend_peek (by simp [hwild])).symm, .inl (.anyMember hwild)⟩
  · obtain ⟨ts, hts, hsels⟩ := derived_bracketed hs h
    exact ⟨_, hts, .inr ⟨hopen, hsels⟩⟩
termination_by (s.size, 1)
decreasing_by exact Prod.Lex.right _ (by decide)

theorem derived_bracketed {s rest : Stream} (hs : Scanned s.ahead)
    {hopen : s.peek.kind = .openSquare} {sels : List Selector}
    (h : Reads (bracketed dialect s hopen) sels rest) :
    ∃ ts, s = rest.prepend (s.peek :: ts) ∧ Derives dialect .bracketed (s.peek :: ts) sels := by
  obtain ⟨-, hsels⟩ := reads_bracketed_iff.1 h
  have hne : s.peek.kind ≠ .endOfQuery := by simp [hopen]
  have hlt := Stream.size_advance_lt hne
  obtain ⟨ts, closing, hts, hclose, hderives⟩ := derived_selectors hs.tail hsels
  exact ⟨_, Stream.eq_prepend_peek_cons hne hts, .bracketed hopen hderives hclose⟩
termination_by (s.size, 0)
decreasing_by apply Prod.Lex.left; assumption

theorem derived_selectors {s rest : Stream} (hs : Scanned s.ahead) {sels : List Selector}
    (h : Reads (selectors dialect s) sels rest) :
    ∃ ts closing, s = rest.prepend (ts ++ [closing]) ∧ closing.kind = .closeSquare ∧
      Derives dialect .selectors ts sels := by
  obtain ⟨first, s₁, hfirst, hend⟩ := reads_selectors_iff.1 h
  have hlt := hfirst.size_lt
  obtain ⟨ts, hts, hsel⟩ := derived_selector hs hfirst
  have hs₁ := Stream.scanned_rest hs hts
  rcases hend with ⟨hclose, rfl, rfl⟩ | ⟨hcomma, -, more, hmore, rfl⟩
  · have hpeek := Stream.prepend_peek (s := s₁) (by simp [hclose])
    exact ⟨ts, s₁.peek, Stream.prepend_trans hts hpeek.symm, hclose, .lastSelector hsel⟩
  · have hne : s₁.peek.kind ≠ .endOfQuery := by simp [hcomma]
    have hlt' := Stream.size_advance_lt hne
    obtain ⟨us, closing, hus, hclose, hsels⟩ := derived_selectors hs₁.tail hmore
    have heq := Stream.prepend_trans hts (Stream.eq_prepend_peek_cons hne hus)
    exact ⟨_, closing, by simpa using heq, hclose, .moreSelectors hsel hcomma hsels⟩
termination_by (s.size, 1)
decreasing_by
  · exact Prod.Lex.right _ (by decide)
  · apply Prod.Lex.left
    omega

theorem derived_selector {s rest : Stream} (hs : Scanned s.ahead) {sel : Selector}
    (h : Reads (selector dialect s) sel rest) : Derived dialect .selector s rest sel := by
  rw [reads_selector_iff] at h
  rcases h with ⟨hkind, i, hi, hmore⟩ | ⟨hkind, name, htext, rfl, rfl⟩ | ⟨hcolon, hmore⟩ |
    ⟨hwild, rfl, rfl⟩ | ⟨hmark, e, he, hcheck, rfl⟩
  · have hne : s.peek.kind ≠ .endOfQuery := by simp [hkind]
    have hindex := derives_index hs hkind hi
    rcases hmore with ⟨hcolon, hmore⟩ | ⟨-, rfl, rfl⟩
    · obtain ⟨ts, us, stop?, step?, hts, hstop, hstep, rfl⟩ := derives_sliceRest hs.tail.tail hmore
      have heq := Stream.eq_prepend_peek_cons (by simp [hcolon]) hts
      exact ⟨_, Stream.eq_prepend_peek_cons hne heq, .slice (.present hindex) hcolon hstop hstep⟩
    · exact ⟨_, (Stream.prepend_peek hne).symm, .index hindex⟩
  · have hne : s.peek.kind ≠ .endOfQuery := by rcases hkind with h | h <;> simp [h]
    exact ⟨_, (Stream.prepend_peek hne).symm, .name hkind htext⟩
  · obtain ⟨ts, us, stop?, step?, hts, hstop, hstep, rfl⟩ := derives_sliceRest hs.tail hmore
    exact ⟨_, Stream.eq_prepend_peek_cons (by simp [hcolon]) hts,
      .slice .absent hcolon hstop hstep⟩
  · exact ⟨_, (Stream.prepend_peek (by simp [hwild])).symm, .wildcard hwild⟩
  · have hne : s.peek.kind ≠ .endOfQuery := by simp [hmark]
    have hlt := Stream.size_advance_lt hne
    obtain ⟨ts, hts, hderives⟩ := derived_expression hs.tail he
    exact ⟨_, Stream.eq_prepend_peek_cons hne hts,
      .filter hmark (derivesAt_of_checkTest hderives hcheck) (isTest_of_checkTest hcheck)⟩
termination_by (s.size, 0)
decreasing_by apply Prod.Lex.left; assumption

theorem derived_expression {level : Level} {s rest : Stream} (hs : Scanned s.ahead) {e : Expr}
    (h : Reads (expression dialect level s) e rest) :
    ∃ ts, s = rest.prepend ts ∧ (Derives dialect .literal ts e ∨ DerivesAt dialect level ts e) := by
  obtain ⟨first, s₁, hfirst, hmore⟩ := reads_expression_iff.1 h
  have hlt := hfirst.size_lt
  obtain ⟨ts, hts, hoperand⟩ := derived_operand hs hfirst
  obtain ⟨us, hus, hderives⟩ :=
    derived_operations (Stream.scanned_rest hs hts) (.operand hoperand) hmore
  exact ⟨_, Stream.prepend_trans hts hus, hderives⟩
termination_by (s.size, 1)
decreasing_by
  · exact Prod.Lex.right _ (by decide)
  · apply Prod.Lex.left
    assumption

theorem derived_operations {level : Level} {grouped : Bool} {ts : List Token} {left e : Expr}
    {s rest : Stream} (hs : Scanned s.ahead)
    (hready : Ready dialect level grouped s.peek.kind ts left)
    (h : Reads (operations dialect level grouped left s) e rest) :
    ∃ us, s = rest.prepend us ∧
      (Derives dialect .literal (ts ++ us) e ∨ DerivesAt dialect level (ts ++ us) e) := by
  rw [reads_operations_iff] at h
  rcases h with ⟨hbinds, hgrouped, next, s₁, hnext, hmore⟩ | ⟨-, rfl, rfl⟩
  · have hne := ne_endOfQuery_of_binds hbinds
    have hlt := Stream.size_advance_lt hne
    have hlt' := hnext.size_lt
    obtain ⟨us, hus, hready'⟩ := derived_operation hs.tail hready hbinds hgrouped hnext
    have heq := Stream.eq_prepend_peek_cons hne hus
    obtain ⟨vs, hvs, hderives⟩ :=
      derived_operations (Stream.scanned_rest hs heq) hready' hmore
    exact ⟨_, Stream.prepend_trans heq hvs, by simpa using hderives⟩
  · exact ⟨[], rfl, by simpa using hready.derived⟩
termination_by (s.size, 0)
decreasing_by
  · apply Prod.Lex.left
    assumption
  · apply Prod.Lex.left
    omega

theorem derived_operation {level : Level} {grouped : Bool} {ts : List Token} {left next : Expr}
    {operator : Token} {s rest : Stream} (hs : Scanned s.ahead)
    (hready : Ready dialect level grouped operator.kind ts left)
    (hbinds : binds operator.kind level = true)
    (hgrouped : ((comparison? operator.kind).isSome && grouped) = false)
    (h : Reads (operation dialect left operator s) next rest) :
    ∃ us, s = rest.prepend us ∧
      Ready dialect level false rest.peek.kind (ts ++ operator :: us) next := by
  rw [reads_operation_iff] at h
  rcases h with ⟨comparison, hcomparison, hopen, right, hright, hleftCheck, hrightCheck, rfl⟩ |
    ⟨hnone, right, hright, hleftCheck, hrightCheck, hnext⟩
  · obtain ⟨first, s₁, hfirst, hmore⟩ := reads_expression_iff.1 hright
    obtain ⟨rfl, rfl⟩ := hmore.unique (reads_operations_stop not_binds_relation)
    obtain ⟨us, hus, hoperand⟩ := derived_operand hs hfirst
    have hungrouped : grouped = false := by simpa [hcomparison] using hgrouped
    have hleft := hready.comparable hungrouped hleftCheck
    have hright := hoperand.comparable (beq_eq_false_iff_ne.2 hopen) hrightCheck
    have hlevel : level.rank < Level.relation.rank := by
      simpa [binds, level?_of_comparison? hcomparison] using hbinds
    exact ⟨us, hus, .comparison hlevel (.comparison hleft hcomparison hright)
      (by simp [Expr.checkComparable])⟩
  · have hstop := not_binds_of_reads_expression hright
    obtain ⟨us, hus, hderives⟩ := derived_expression hs hright
    have hrightDerives := derivesAt_of_checkTest hderives hrightCheck
    have hleftTest := isTest_of_checkTest hleftCheck
    have hrightTest := isTest_of_checkTest hrightCheck
    have hliteral := not_isLiteral_of_checkTest hleftCheck
    rcases kind_of_binds hbinds hnone with hkind | hkind
    · have hlevel : level.rank < Level.conjunction.rank := by
        simpa [binds, hkind, level?] using hbinds
      have hleft : Derives dialect .conjunction ts left := (hkind ▸ hready).conjunct hliteral
      simp only [hkind, if_true] at hrightDerives hnext
      subst hnext
      exact ⟨us, hus, .conjunction hlevel
        (.conjunction hleft hkind hrightDerives hleftTest hrightTest)
        (by simp [Expr.checkComparable])⟩
    · have hlevel : level.rank < Level.disjunction.rank := by
        simpa [binds, hkind, level?] using hbinds
      have hleft := hready.disjunct hliteral
      simp only [hkind, reduceCtorEq, if_false] at hrightDerives hnext hstop
      subst hnext
      exact ⟨us, hus, .disjunction hlevel
        (.disjunction hleft hkind hrightDerives hleftTest hrightTest)
        (by simp [Expr.checkComparable]) hstop⟩
termination_by (s.size, 2)
decreasing_by all_goals exact Prod.Lex.right _ (by decide)

theorem derived_operand {s rest : Stream} (hs : Scanned s.ahead) {e : Expr}
    (h : Reads (operand dialect s) e rest) :
    ∃ ts, s = rest.prepend ts ∧ DerivesOperand dialect (s.peek.kind == .openParen) ts e := by
  rw [reads_operand_iff] at h
  rcases h with ⟨hkind, text, htext, rfl, rfl⟩ | ⟨hkind, n, hn, rfl, rfl⟩ | ⟨hkind, rfl, rfl⟩ |
    ⟨hkind, rfl, rfl⟩ | ⟨hkind, rfl, rfl⟩ | ⟨hkind, e, he, hcheck, rfl⟩ |
    ⟨hkind, s₁, he, hclose, hcheck, rfl⟩ | ⟨hkind, segs, hsegs, rfl⟩ | ⟨hkind, segs, hsegs, rfl⟩ |
    ⟨hkind, hcall⟩
  · have hne : s.peek.kind ≠ .endOfQuery := by rcases hkind with h | h <;> simp [h]
    exact ⟨_, (Stream.prepend_peek hne).symm, .literal (.literal (.string hkind htext))⟩
  · have hne : s.peek.kind ≠ .endOfQuery := by rcases hkind with h | h <;> simp [h]
    exact ⟨_, (Stream.prepend_peek hne).symm, .literal (.literal (derives_number hs hkind hn))⟩
  · exact ⟨_, (Stream.prepend_peek (by simp [hkind])).symm, .literal (.literal (.true hkind))⟩
  · exact ⟨_, (Stream.prepend_peek (by simp [hkind])).symm, .literal (.literal (.false hkind))⟩
  · exact ⟨_, (Stream.prepend_peek (by simp [hkind])).symm, .literal (.literal (.null hkind))⟩
  · have hne : s.peek.kind ≠ .endOfQuery := by simp [hkind]
    have hlt := Stream.size_advance_lt hne
    obtain ⟨ts, hts, hderives⟩ := derived_expression hs.tail he
    have hunary := derivesAt_of_checkTest hderives hcheck
    refine ⟨_, Stream.eq_prepend_peek_cons hne hts,
      .unary (.negation hkind hunary (isTest_of_checkTest hcheck)) fun _ hcomparable => ?_⟩
    simp [Expr.checkComparable] at hcomparable
  · have hne : s.peek.kind ≠ .endOfQuery := by simp [hkind]
    have hlt := Stream.size_advance_lt hne
    obtain ⟨ts, hts, hderives⟩ := derived_expression hs.tail he
    have hdisjunction := derivesAt_of_checkTest hderives hcheck
    have hpeek := Stream.prepend_peek (s := s₁) (by simp [hclose])
    refine ⟨_, Stream.eq_prepend_peek_cons hne (Stream.prepend_trans hts hpeek.symm),
      .unary (.group hkind hdisjunction (isTest_of_checkTest hcheck) hclose) fun hgrouped => ?_⟩
    simp [hkind] at hgrouped
  · have hne : s.peek.kind ≠ .endOfQuery := by simp [hkind]
    have hlt := Stream.size_advance_lt hne
    obtain ⟨ts, hts, hderives⟩ := derived_segments hs.tail hsegs
    have hpath := Derives.absolute hkind hderives
    exact ⟨_, Stream.eq_prepend_peek_cons hne hts,
      .unary (.unaryPath hpath) fun _ => comparable_of_path hpath⟩
  · have hne : s.peek.kind ≠ .endOfQuery := by simp [hkind]
    have hlt := Stream.size_advance_lt hne
    obtain ⟨ts, hts, hderives⟩ := derived_segments hs.tail hsegs
    have hpath := Derives.relative hkind hderives
    exact ⟨_, Stream.eq_prepend_peek_cons hne hts,
      .unary (.unaryPath hpath) fun _ => comparable_of_path hpath⟩
  · have hne : s.peek.kind ≠ .endOfQuery := by simp [hkind]
    have hlt := Stream.size_advance_lt hne
    obtain ⟨ts, hts, hderives⟩ := derived_call hs.tail hkind hcall
    exact ⟨_, Stream.eq_prepend_peek_cons hne hts,
      .unary (.unaryCall hderives) fun _ => comparable_of_call hderives⟩
termination_by (s.size, 0)
decreasing_by all_goals (apply Prod.Lex.left; assumption)

theorem derived_call {s rest : Stream} (hs : Scanned s.ahead) {function : Token} {e : Expr}
    (hfunction : function.kind = .function) (h : Reads (call dialect function s) e rest) :
    ∃ ts, s = rest.prepend ts ∧ Derives dialect .call (function :: ts) e := by
  obtain ⟨hopen, h⟩ := reads_call_iff.1 h
  have hne : s.peek.kind ≠ .endOfQuery := by simp [hopen]
  have hlt := Stream.size_advance_lt hne
  rcases h with ⟨hclose, hcheck, rfl, rfl⟩ | ⟨-, given, hgiven, hcheck, rfl⟩
  · have hpeek := Stream.prepend_peek (s := s.advance) (by simp [hclose])
    exact ⟨_, Stream.eq_prepend_peek_cons hne hpeek.symm,
      .emptyCall hfunction hopen hclose (checkCall_eq_ok_iff.1 hcheck)⟩
  · obtain ⟨ts, closing, hts, hclose, hderives⟩ := derived_arguments hs.tail hgiven
    exact ⟨_, Stream.eq_prepend_peek_cons hne hts,
      .call hfunction hopen hderives hclose (checkCall_eq_ok_iff.1 hcheck)⟩
termination_by (s.size, 0)
decreasing_by apply Prod.Lex.left; assumption

theorem derived_arguments {s rest : Stream} (hs : Scanned s.ahead) {given : List Expr}
    (h : Reads (arguments dialect s) given rest) :
    ∃ ts closing, s = rest.prepend (ts ++ [closing]) ∧ closing.kind = .closeParen ∧
      Derives dialect .arguments ts given := by
  obtain ⟨first, s₁, hfirst, hend⟩ := reads_arguments_iff.1 h
  have hlt := hfirst.size_lt
  obtain ⟨ts, hts, hderives⟩ := derived_expression hs hfirst
  have hs₁ := Stream.scanned_rest hs hts
  have hargument : Derives dialect .argument ts first := by
    rcases hderives with hliteral | hdisjunction
    · exact .literalArgument hliteral
    · exact .logicalArgument hdisjunction
  rcases hend with ⟨hclose, rfl, rfl⟩ | ⟨hcomma, -, more, hmore, rfl⟩
  · have hpeek := Stream.prepend_peek (s := s₁) (by simp [hclose])
    exact ⟨ts, s₁.peek, Stream.prepend_trans hts hpeek.symm, hclose, .lastArgument hargument⟩
  · have hne : s₁.peek.kind ≠ .endOfQuery := by simp [hcomma]
    have hlt' := Stream.size_advance_lt hne
    obtain ⟨us, closing, hus, hclose, hmoreDerives⟩ := derived_arguments hs₁.tail hmore
    have heq := Stream.prepend_trans hts (Stream.eq_prepend_peek_cons hne hus)
    exact ⟨_, closing, by simpa using heq, hclose, .moreArguments hargument hcomma hmoreDerives⟩
termination_by (s.size, 2)
decreasing_by
  · exact Prod.Lex.right _ (by decide)
  · apply Prod.Lex.left
    omega

end

end Grammar

end JsonPath
