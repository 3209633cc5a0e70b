import JsonPath.Proofs.Canonical.Reading

/-!
# What canonical tokens lose

Where a query does not read back, its tokens are no query at all. After a `!` the parser takes the
left operand of a comparison for all that is negated; what it has then is a negation in front of a
comparison operator, which it refuses wherever it stands. A step that is out of bounds and a literal
with the number of a surrogate are refused at once.
-/

namespace JsonPath

open Grammar
open JsonPath.Parser (Level Reads comparison? expression operand operations)

variable {dialect : Dialect} {ts us vs : List Token} {s rest : Stream}

def Expr.IsNegation : Expr → Prop
  | .negation _ _ => True
  | _ => False

/-- As an operand the tokens are read, if at all, up to a comparison operator before which the
operand cannot stand; and only if they are those of a negation. -/
def Stumbles (dialect : Dialect) (ts : List Token) (e : Expr) : Prop :=
  ∀ (s rest : Stream) (item : Expr), Reads (operand dialect (s.prepend ts)) item rest →
    e.IsNegation ∧ item.checkComparable dialect.signatures ≠ .ok () ∧
      (comparison? rest.peek.kind).isSome = true

/-- Whatever follows the tokens, they are not read. -/
def Refuses {bound : Stream → Nat} {α : Type}
    (read : (s : Stream) → Except CompileError (Parser.Parsed (bound s) α)) (ts : List Token) :
    Prop :=
  ∀ (s rest : Stream) (item : α), ¬ Reads (read (s.prepend ts)) item rest

/-- The tokens are not read as an expression, unless one that ends before any comparison. -/
def Unreadable (dialect : Dialect) (ts : List Token) : Prop :=
  ∀ level : Level, level.rank < Level.relation.rank → Refuses (expression dialect level) ts

theorem Stumbles.unreadable {e : Expr} (h : Stumbles dialect ts e) : Unreadable dialect ts := by
  intro level hlevel s rest item hreads
  obtain ⟨first, s₁, hfirst, hoperations⟩ := Parser.reads_expression_iff.1 hreads
  obtain ⟨-, hcheck, hsome⟩ := h s s₁ first hfirst
  obtain ⟨comparison, hcomparison⟩ := Option.isSome_iff_exists.1 hsome
  rcases Parser.reads_operations_iff.1 hoperations with ⟨-, -, next, s₂, hoperation, -⟩ | ⟨hstop, -⟩
  · rcases Parser.reads_operation_iff.1 hoperation with ⟨_, -, -, _, -, hleft, -⟩ | ⟨hnone, -⟩
    · exact hcheck hleft
    · rw [hcomparison] at hnone
      cases hnone
  · rw [Parser.binds_of_comparison? hcomparison hlevel] at hstop
    cases hstop

/-- Nothing that could be compared stumbles. -/
theorem Stumbles.not_reads {e item : Expr} (h : Stumbles dialect ts e)
    (he : e.IsComparable dialect.signatures) :
    ¬ Reads (operand dialect (s.prepend ts)) item rest := by
  intro hreads
  obtain ⟨hnegation, -⟩ := h s rest item hreads
  cases e with
  | negation => rcases he with ⟨_, _, heq⟩ | hsingular | hresult <;> contradiction
  | _ => exact hnegation

/-! ### Negations -/

theorem reads_operand_negation {not : Token} {item : Expr} (hnot : not.kind = .negation)
    (h : Reads (operand dialect (s.prepend (not :: ts))) item rest) :
    ∃ first, Reads (operand dialect (s.prepend ts)) first rest ∧ item = .negation not first := by
  rw [Parser.reads_operand_iff] at h
  simp only [Stream.peek_prepend_cons, Stream.advance_prepend_cons, hnot, reduceCtorEq, false_and,
    true_and, or_self, false_or, or_false] at h
  obtain ⟨e, he, -, rfl⟩ := h
  obtain ⟨first, s₁, hfirst, hoperations⟩ := Parser.reads_expression_iff.1 he
  rcases Parser.reads_operations_iff.1 hoperations with ⟨hbinds, -⟩ | ⟨-, rfl, rfl⟩
  · rw [Parser.not_binds_unary] at hbinds
    cases hbinds
  · exact ⟨first, hfirst, rfl⟩

theorem stumbles_negation {not : Token} {e : Expr} (hnot : not.kind = .negation) (he : e.IsNegation)
    (h : ∀ (s rest : Stream) (item : Expr), Reads (operand dialect (s.prepend ts)) item rest →
      (comparison? rest.peek.kind).isSome = true) : Stumbles dialect (not :: ts) e := by
  intro s rest item hreads
  obtain ⟨first, hfirst, rfl⟩ := reads_operand_negation hnot hreads
  refine ⟨he, ?_, h s rest first hfirst⟩
  simp [Expr.checkComparable]

/-! ### Groups -/

theorem stumbles_group {opening closing : Token} {e : Expr} (hopening : opening.kind = .openParen)
    (h : Refuses (expression dialect .lowest) ts) :
    Stumbles dialect (opening :: (ts ++ [closing])) e := by
  intro s rest item hreads
  rw [Parser.reads_operand_iff] at hreads
  simp only [Stream.peek_prepend_cons, Stream.advance_prepend_cons, hopening, reduceCtorEq,
    false_and, true_and, or_self, false_or, or_false] at hreads
  obtain ⟨s₁, hitem, -⟩ := hreads
  rw [Stream.prepend_append] at hitem
  exact absurd hitem (h _ _ _)

/-- The operands of a logical operator are read one after the other. -/
theorem not_reads_operations {operator : Token} {left item : Expr} {level : Level}
    (hcomparison : comparison? operator.kind = none) (hright : Unreadable dialect vs)
    (hbinds : Parser.binds operator.kind level = true) {grouped : Bool} :
    ¬ Reads (operations dialect level grouped left (s.prepend (operator :: vs))) item rest := by
  intro h
  rcases Parser.reads_operations_iff.1 h with ⟨-, -, next, s₁, hoperation, -⟩ | ⟨hstop, -⟩
  · rcases Parser.reads_operation_iff.1 hoperation with ⟨_, hsome, -⟩ | ⟨-, right, hreads, -⟩
    · rw [Stream.peek_prepend_cons, hcomparison] at hsome
      cases hsome
    · split at hreads <;> exact hright _ (by decide) _ _ _ hreads
  · rw [Stream.peek_prepend_cons, hbinds] at hstop
    cases hstop

/-- Nor is the right operand of a comparison passed over. -/
theorem not_reads_operations_of_comparison {operator : Token} {left item : Expr} {level : Level}
    {comparison : Comparison} (hcomparison : comparison? operator.kind = some comparison)
    (hlevel : level.rank < Level.relation.rank) {grouped : Bool}
    (hright : Refuses (operand dialect) vs) :
    ¬ Reads (operations dialect level grouped left (s.prepend (operator :: vs))) item rest := by
  intro h
  rcases Parser.reads_operations_iff.1 h with ⟨-, -, next, s₁, hoperation, -⟩ | ⟨hstop, -⟩
  · rcases Parser.reads_operation_iff.1 hoperation with ⟨_, -, -, right, hreads, -⟩ | ⟨hnone, -⟩
    · obtain ⟨first, s₂, hfirst, -⟩ := Parser.reads_expression_iff.1 hreads
      exact hright _ _ _ hfirst
    · rw [Stream.peek_prepend_cons, hcomparison] at hnone
      cases hnone
  · rw [Stream.peek_prepend_cons, Parser.binds_of_comparison? hcomparison hlevel] at hstop
    cases hstop

/-- What stands between parentheses is refused if one of the operands is: the left one is not read
at all, or it is, and then the right one has to be. -/
theorem refuses_of_unreadable {operator : Token}
    (hoperator : operator.kind = .conjunction ∨ operator.kind = .disjunction)
    (h : Unreadable dialect us ∨ (∃ left, Derives dialect .basic us left) ∧ Unreadable dialect vs) :
    Refuses (expression dialect .lowest) (us ++ operator :: vs) := by
  intro s rest item hreads
  rw [Stream.prepend_append] at hreads
  rcases h with hus | ⟨⟨left, hleft⟩, hvs⟩
  · exact hus .lowest (by decide) _ _ _ hreads
  · have hcomparison : comparison? operator.kind = none := by
      rcases hoperator with heq | heq <;> rw [heq] <;> rfl
    have hbinds : Parser.binds operator.kind .lowest = true := by
      rcases hoperator with heq | heq <;> rw [heq] <;> rfl
    have hends : (s.prepend (operator :: vs)).EndsOperand := by
      rcases hoperator with heq | heq <;>
        simp [Stream.EndsOperand, Stream.EndsPath, heq, comparison?]
    rw [hleft.accepted _ _ _ _ hends (by decide)] at hreads
    exact not_reads_operations hcomparison hvs hbinds hreads

/-- The left operand of a comparison is read up to the operator. -/
theorem Expr.Regained.reads_left {e e' : Expr} (h : e.Regained dialect us e')
    (he : e.IsComparable dialect.signatures) {operator : Comparison} {sign : Token}
    (hsign : sign.shape = operator.shape) (s : Stream) (vs : List Token) :
    Reads (operand dialect (s.prepend (us ++ sign :: vs))) e' (s.prepend (sign :: vs)) := by
  have hends : (s.prepend (sign :: vs)).EndsPath := by
    refine @Stream.endsPath_of_binds _ .lowest ?_
    rw [Stream.peek_prepend_cons, kind_of_shape hsign]
    exact Parser.binds_of_comparison? operator.comparison?_kind (by decide)
  rw [Stream.prepend_append]
  exact (h.comparable he).accepted _ hends

theorem not_isComparison {e : Expr} (h : e.IsComparable dialect.signatures) : ¬ e.IsComparison := by
  intro hcomparison
  cases e with
  | comparison => rcases h with ⟨_, _, heq⟩ | hsingular | hresult <;> contradiction
  | _ => exact hcomparison

/-! ### Literals, paths, calls and slices -/

/-- A surrogate that stands alone is refused. -/
theorem stumbles_literal {token : Token} {value : Literal} {e : Expr}
    (htoken : token.shape = value.shape) (h : ¬ value.Restores) : Stumbles dialect [token] e := by
  intro s rest item hreads
  cases value with
  | string text =>
    have hkind : token.kind = .doubleQuoted := (Prod.mk.inj htoken).1
    rw [Parser.reads_operand_iff] at hreads
    simp only [Stream.peek_prepend_cons, hkind, reduceCtorEq, false_and, or_true, true_and,
      or_false] at hreads
    obtain ⟨read, hread, -⟩ := hreads
    obtain ⟨rfl, hscalar⟩ := (literalText_of_stringShape htoken).1 hread
    exact absurd hscalar h
  | null | boolean | number => exact absurd trivial h

theorem stumbles_path {token : Token} {e : Expr}
    (htoken : token.kind = .root ∨ token.kind = .current)
    (h : Refuses (Parser.segments dialect) ts) :
    Stumbles dialect (token :: ts) e := by
  intro s rest item hreads
  rw [Parser.reads_operand_iff] at hreads
  rcases htoken with htoken | htoken <;>
  · simp only [Stream.peek_prepend_cons, Stream.advance_prepend_cons, htoken, reduceCtorEq,
      false_and, true_and, or_self, false_or, or_false] at hreads
    obtain ⟨segs, hsegs, -⟩ := hreads
    exact absurd hsegs (h s rest segs)

theorem stumbles_call {function opening : Token} {e : Expr} (hfunction : function.kind = .function)
    (hfirst : ∀ s : Stream, (s.prepend ts).peek.kind ≠ .closeParen)
    (h : Refuses (Parser.arguments dialect) ts) :
    Stumbles dialect (function :: opening :: ts) e := by
  intro s rest item hreads
  rw [Parser.reads_operand_iff] at hreads
  simp only [Stream.peek_prepend_cons, Stream.advance_prepend_cons, hfunction, reduceCtorEq,
    false_and, true_and, or_self, false_or] at hreads
  rcases (Parser.reads_call_iff.1 hreads).2 with ⟨hclose, -⟩ | ⟨-, given, hgiven, -⟩
  · exact absurd hclose (hfirst s)
  · exact absurd hgiven (h s rest given)

/-- No argument starts with what closes a call. -/
theorem Expr.exists_shapes : ∀ e : Expr, ∃ shape shapes, e.shapes = shape :: shapes ∧
    shape.1 ≠ .closeParen
  | .literal _ value => by
    refine ⟨value.shape, [], rfl, ?_⟩
    match value with
    | .null | .boolean true | .boolean false | .number (.integer _) | .number (.double _)
    | .string _ => simp [Literal.shape]
  | .negation _ _ | .conjunction _ _ _ | .disjunction _ _ _ | .relative _ _ | .absolute _ _
  | .call _ _ _ => ⟨_, _, rfl, by simp⟩
  | .comparison _ left operator right => by
    obtain ⟨shape, shapes, hshapes, hne⟩ := Expr.exists_shapes left
    refine ⟨shape, shapes ++ operator.shape :: right.shapes, ?_, hne⟩
    rw [Expr.shapes, hshapes, List.cons_append]

theorem peek_ne_closeParen {e : Expr} {more : List Expr} {closing : Token}
    (hts : ts.map Token.shape = argumentShapes (e :: more)) (s : Stream) :
    (s.prepend (ts ++ [closing])).peek.kind ≠ .closeParen := by
  obtain ⟨shape, shapes, hshapes, hne⟩ := e.exists_shapes
  have hargument : ∃ shapes', argumentShapes (e :: more) = shape :: shapes' := by
    cases more with
    | nil => exact ⟨shapes, hshapes⟩
    | cons next more =>
      refine ⟨shapes ++ ((.comma, ",") : Shape) :: argumentShapes (next :: more), ?_⟩
      rw [argumentShapes.eq_3 e (next :: more) (by simp), hshapes, List.cons_append]
  obtain ⟨shapes', hshapes'⟩ := hargument
  rw [hshapes'] at hts
  obtain ⟨t, us, rfl, ht, -⟩ := List.map_eq_cons_iff.1 hts
  rw [← ht] at hne
  exact hne

theorem index_ne_ok {token : Token} {i j : Int} (htoken : token.shape = integerShape i)
    (h : ¬ (dialect.leastIndex ≤ i ∧ i ≤ dialect.greatestIndex)) :
    Parser.index dialect token ≠ .ok j := by
  intro hindex
  obtain ⟨-, htext⟩ := Prod.mk.inj htoken
  have hspells := Numeral.spells_ofInteger i
  rw [← htext] at hspells
  obtain ⟨-, -, hvalue, hleast, hgreatest⟩ := (Parser.index_eq_ok_iff hspells rfl).1 hindex
  rw [Numeral.integerValue_ofInteger] at hvalue
  subst hvalue
  exact h ⟨hleast, hgreatest⟩

/-- A step out of bounds is refused. -/
theorem not_reads_sliceRest {stop? : Option Int} {colon step token : Token} {start? : Option Int}
    {item : Selector} (hstop : Bound dialect ts stop?) (hcolon : colon.kind = .colon)
    (hstep : step.shape = integerShape 1)
    (h : ¬ (dialect.leastIndex ≤ 1 ∧ 1 ≤ dialect.greatestIndex)) :
    ¬ Reads (Parser.sliceRest dialect token start? (s.prepend (ts ++ [colon, step]))) item
      rest := by
  intro hreads
  have hkind : (s.prepend [colon, step]).peek.kind = .colon := hcolon
  have hbound := hstop.reads_optionalIndex (s := s.prepend [colon, step]) (by simp [hcolon])
  rw [Stream.prepend_append] at hreads
  obtain ⟨_, s₁, hs₁, hrest⟩ := Parser.reads_sliceRest_iff.1 hreads
  obtain ⟨rfl, rfl⟩ := hs₁.unique hbound
  rcases hrest with ⟨-, step?, hindex, -⟩ | ⟨hne, -⟩
  · rcases Parser.reads_optionalIndex_iff.1 hindex with ⟨-, j, hj, -⟩ | ⟨hne, -⟩
    · exact index_ne_ok hstep h hj
    · exact hne (kind_of_shape hstep)
  · exact hne hkind

/-- To read segments is to read the selectors of the first one up to its closing bracket. -/
theorem exists_reads_selectors {seg : Segment} (hts : ts.map Token.shape = seg.shapes) :
    ∃ us closing, us.map Token.shape = selectorShapes seg.selectors ∧
      closing.kind = .closeSquare ∧ ∀ (s rest : Stream) (item : List Segment),
        Reads (Parser.segments dialect (s.prepend ts)) item rest → ∃ first s₁ more,
          Reads (Parser.selectors dialect ((s.prepend [closing]).prepend us)) first s₁ ∧
            Reads (Parser.segments dialect s₁) more rest := by
  cases seg with
  | child token sels =>
    obtain ⟨opening, us, closing, rfl, hopening, hus, hclosing⟩ := exists_of_enclosed hts
    refine ⟨us, closing, hus, kind_of_shape hclosing, fun s rest item hreads => ?_⟩
    have hopening := kind_of_shape hopening
    rcases Parser.reads_segments_iff.1 hreads with ⟨hkind, -⟩ | ⟨hkind, -⟩ |
      ⟨hkind, first, s₁, more, hfirst, hmore, -⟩ | ⟨-, -, hne, -⟩
    · cases hopening.symm.trans hkind
    · cases hopening.symm.trans hkind
    · obtain ⟨-, hfirst⟩ := Parser.reads_bracketed_iff.1 hfirst
      rw [Stream.advance_prepend_cons, Stream.prepend_append] at hfirst
      exact ⟨first, s₁, more, hfirst, hmore⟩
    · exact absurd hopening hne
  | descendant token sels =>
    obtain ⟨dots, ws, rfl, hdots, hws⟩ := List.map_eq_cons_iff.1 hts
    obtain ⟨opening, us, closing, rfl, hopening, hus, hclosing⟩ := exists_of_enclosed hws
    refine ⟨us, closing, hus, kind_of_shape hclosing, fun s rest item hreads => ?_⟩
    have hdots := kind_of_shape hdots
    have hopening := kind_of_shape hopening
    rcases Parser.reads_segments_iff.1 hreads with
      ⟨-, first, s₁, more, hfirst, hmore, -⟩ | ⟨hkind, -⟩ | ⟨hkind, -⟩ | ⟨hne, -⟩
    · rw [Stream.advance_prepend_cons] at hfirst
      rcases Parser.reads_dotted_iff.1 hfirst with ⟨hkind, -⟩ | ⟨hkind, -⟩ | ⟨_, hfirst⟩
      · cases hopening.symm.trans hkind
      · cases hopening.symm.trans hkind
      · obtain ⟨-, hfirst⟩ := Parser.reads_bracketed_iff.1 hfirst
        rw [Stream.advance_prepend_cons, Stream.prepend_append] at hfirst
        exact ⟨first, s₁, more, hfirst, hmore⟩
    · cases hdots.symm.trans hkind
    · cases hdots.symm.trans hkind
    · exact absurd hdots hne

theorem Segment.derives_selectors {seg : Segment} (htyped : seg.WellTyped dialect.signatures)
    (hproper : seg.Proper dialect) (hrestores : seg.Restores dialect)
    (hfinite : seg.isFinite = true)
    (hts : ts.map Token.shape = selectorShapes seg.selectors) :
    ∃ sels, Derives dialect .selectors ts sels := by
  cases seg with
  | child token sels | descendant token sels =>
    obtain ⟨sels', -, h⟩ :=
      selectors_regained sels hproper.1 htyped hproper.2 hrestores hfinite ts hts
    exact ⟨sels', h⟩

/-! ### Queries -/

theorem Stumbles.lost {e : Expr} (h : Stumbles dialect ts e) :
    (¬ e.IsComparison → Stumbles dialect ts e) ∧ Unreadable dialect ts :=
  ⟨fun _ => h, h.unreadable⟩

mutual

theorem Expr.unread : ∀ e : Expr, e.WellTyped dialect.signatures → e.Proper dialect →
    e.isFinite = true → ¬ e.Restores dialect → ∀ ts : List Token, ts.map Token.shape = e.shapes →
    (¬ e.IsComparison → Stumbles dialect ts e) ∧ Unreadable dialect ts
  | .literal _ _, _, _, _, hlost, ts, hts => by
    obtain ⟨token, rfl, htoken⟩ := List.map_eq_singleton_iff.1 hts
    exact (stumbles_literal htoken hlost).lost
  | .negation _ operand, htyped, hproper, hfinite, hlost, ts, hts => by
    obtain ⟨not, us, rfl, hnot, hus⟩ := List.map_eq_cons_iff.1 hts
    refine Stumbles.lost
      (stumbles_negation (kind_of_shape hnot) trivial fun s rest item hreads => ?_)
    by_cases hcomparison : operand.IsComparison
    · cases operand with
      | comparison _ left operator right =>
        -- The parentheses are lost, so the left operand alone is negated.
        obtain ⟨vs, sign, ws, rfl, hvs, hsign, -⟩ := exists_of_infix hus
        obtain ⟨hleft, -⟩ := Bool.and_eq_true_iff.1 hfinite
        obtain ⟨htl, -, hcl, -⟩ := htyped
        by_cases hl : left.Restores dialect
        · obtain ⟨left', h⟩ := left.regained htl hproper.1.1 hl hleft vs hvs
          obtain ⟨-, rfl⟩ := hreads.unique (h.reads_left hcl hsign s ws)
          rw [Stream.peek_prepend_cons, kind_of_shape hsign, operator.comparison?_kind]
          rfl
        · rw [Stream.prepend_append] at hreads
          obtain ⟨hstumbles, -⟩ := Expr.unread left htl hproper.1.1 hleft hl vs hvs
          exact absurd hreads ((hstumbles (not_isComparison hcl)).not_reads hcl)
      | _ => exact hcomparison.elim
    · have hlost' : ¬ operand.Restores dialect := fun h => hlost ⟨hcomparison, h⟩
      obtain ⟨hstumbles, -⟩ := Expr.unread operand htyped hproper.1 hfinite hlost' us hus
      exact (hstumbles hcomparison s rest item hreads).2.2
  | .conjunction _ left right, htyped, hproper, hfinite, hlost, ts, hts => by
    obtain ⟨hleft, hright⟩ := Bool.and_eq_true_iff.1 hfinite
    obtain ⟨opening, us, and, vs, closing, rfl, hopening, hus, hand, hvs, -⟩ := exists_of_group hts
    refine (stumbles_group (kind_of_shape hopening)
      (refuses_of_unreadable (.inl (kind_of_shape hand)) ?_)).lost
    by_cases hl : left.Restores dialect
    · have hr : ¬ right.Restores dialect := fun hr => hlost ⟨hl, hr⟩
      obtain ⟨left', h⟩ := left.regained htyped.1 hproper.1 hl hleft us hus
      exact .inr ⟨⟨left', h.basic hproper.2.2.1.1⟩,
        (Expr.unread right htyped.2 hproper.2.1 hright hr vs hvs).2⟩
    · exact .inl (Expr.unread left htyped.1 hproper.1 hleft hl us hus).2
  | .disjunction _ left right, htyped, hproper, hfinite, hlost, ts, hts => by
    obtain ⟨hleft, hright⟩ := Bool.and_eq_true_iff.1 hfinite
    obtain ⟨opening, us, or, vs, closing, rfl, hopening, hus, hor, hvs, -⟩ := exists_of_group hts
    refine (stumbles_group (kind_of_shape hopening)
      (refuses_of_unreadable (.inr (kind_of_shape hor)) ?_)).lost
    by_cases hl : left.Restores dialect
    · have hr : ¬ right.Restores dialect := fun hr => hlost ⟨hl, hr⟩
      obtain ⟨left', h⟩ := left.regained htyped.1 hproper.1 hl hleft us hus
      exact .inr ⟨⟨left', h.basic hproper.2.2.1.1⟩,
        (Expr.unread right htyped.2 hproper.2.1 hright hr vs hvs).2⟩
    · exact .inl (Expr.unread left htyped.1 hproper.1 hleft hl us hus).2
  | .comparison _ left operator right, htyped, hproper, hfinite, hlost, ts, hts => by
    obtain ⟨hleft, hright⟩ := Bool.and_eq_true_iff.1 hfinite
    obtain ⟨us, sign, vs, rfl, hus, hsign, hvs⟩ := exists_of_infix hts
    obtain ⟨htl, htr, hcl, hcr⟩ := htyped
    refine ⟨fun h => absurd trivial h, fun level hlevel s rest item hreads => ?_⟩
    by_cases hl : left.Restores dialect
    · have hr : ¬ right.Restores dialect := fun hr => hlost ⟨hl, hr⟩
      obtain ⟨left', h⟩ := left.regained htl hproper.1 hl hleft us hus
      obtain ⟨hstumbles, -⟩ := Expr.unread right htr hproper.2 hright hr vs hvs
      have hsign' : comparison? sign.kind = some operator := by
        rw [kind_of_shape hsign, operator.comparison?_kind]
      rw [Parser.reads_expression_of_operand (h.reads_left hcl hsign s vs)] at hreads
      exact not_reads_operations_of_comparison hsign' hlevel
        (fun s rest item => (hstumbles (not_isComparison hcr)).not_reads hcr) hreads
    · obtain ⟨hstumbles, -⟩ := Expr.unread left htl hproper.1 hleft hl us hus
      obtain ⟨first, s₁, hfirst, -⟩ := Parser.reads_expression_iff.1 hreads
      rw [Stream.prepend_append] at hfirst
      exact (hstumbles (not_isComparison hcl)).not_reads hcl hfirst
  | .relative _ segments, htyped, hproper, hfinite, hlost, ts, hts => by
    obtain ⟨current, us, rfl, hcurrent, hus⟩ := List.map_eq_cons_iff.1 hts
    exact (stumbles_path (.inr (kind_of_shape hcurrent))
      (segments_unread segments htyped hproper hfinite hlost us hus)).lost
  | .absolute _ segments, htyped, hproper, hfinite, hlost, ts, hts => by
    obtain ⟨root, us, rfl, hroot, hus⟩ := List.map_eq_cons_iff.1 hts
    exact (stumbles_path (.inl (kind_of_shape hroot))
      (segments_unread segments htyped hproper hfinite hlost us hus)).lost
  | .call _ name given, htyped, hproper, hfinite, hlost, ts, hts => by
    obtain ⟨function, ws, rfl, hfunction, hws⟩ := List.map_eq_cons_iff.1 hts
    obtain ⟨opening, us, closing, rfl, hopening, hus, hclosing⟩ := exists_of_enclosed hws
    refine Stumbles.lost (stumbles_call (kind_of_shape hfunction) (fun s => ?_) ?_)
    · match given, hlost, hus with
      | [], hlost, _ => exact absurd trivial hlost
      | e :: more, _, hus => exact peek_ne_closeParen hus s
    · intro s rest item
      rw [Stream.prepend_append]
      exact arguments_unread given htyped.1 hproper.2 hfinite hlost us hus _ rest item

theorem arguments_unread : ∀ given : List Expr, argumentsWellTyped dialect.signatures given →
    argumentsProper dialect given → argumentsAreFinite given = true →
    ¬ argumentsRestore dialect given →
    ∀ ts : List Token, ts.map Token.shape = argumentShapes given →
    Refuses (Parser.arguments dialect) ts
  | [], _, _, _, hlost, _, _ => absurd trivial hlost
  | [e], htyped, hproper, hfinite, hlost, ts, hts => by
    intro s rest item hreads
    obtain ⟨hfinite, -⟩ := Bool.and_eq_true_iff.1 hfinite
    have he : ¬ e.Restores dialect := fun he => hlost ⟨he, trivial⟩
    obtain ⟨first, s₁, hfirst, -⟩ := Parser.reads_arguments_iff.1 hreads
    exact (Expr.unread e htyped.1 hproper.1 hfinite he ts hts).2 _ (by decide) _ _ _ hfirst
  | e :: next :: more, htyped, hproper, hfinite, hlost, ts, hts => by
    intro s rest item hreads
    obtain ⟨hfinite, hfinites⟩ := Bool.and_eq_true_iff.1 hfinite
    obtain ⟨us, comma, vs, rfl, hus, hcomma, hvs⟩ := exists_of_infix hts
    have hcomma := kind_of_shape hcomma
    rw [Stream.prepend_append] at hreads
    obtain ⟨first, s₁, hfirst, hrest⟩ := Parser.reads_arguments_iff.1 hreads
    by_cases he : e.Restores dialect
    · have hmore : ¬ argumentsRestore dialect (next :: more) := fun h => hlost ⟨he, h⟩
      obtain ⟨e', h⟩ := e.regained htyped.1 hproper.1 he hfinite us hus
      obtain ⟨-, rfl⟩ := hfirst.unique (h.argument.accepted _ (.inl hcomma))
      rcases hrest with ⟨hclose, -⟩ | ⟨-, -, given, hgiven, -⟩
      · cases hcomma.symm.trans hclose
      · exact arguments_unread (next :: more) htyped.2 hproper.2 hfinites hmore vs hvs _ _ _ hgiven
    · exact (Expr.unread e htyped.1 hproper.1 hfinite he us hus).2 _ (by decide) _ _ _ hfirst

theorem Selector.unread : ∀ sel : Selector, sel.WellTyped dialect.signatures →
    sel.Proper dialect → sel.isFinite = true → ¬ sel.Restores dialect →
    ∀ ts : List Token, ts.map Token.shape = sel.shapes →
    Refuses (Parser.selector dialect) ts
  | .name _ _, _, _, _, hlost, _, _ | .index _ _, _, _, _, hlost, _, _
  | .wildcard _, _, _, _, hlost, _, _ | .slice _ _ _ (some _), _, _, _, hlost, _, _ =>
    absurd trivial hlost
  | .slice _ start? stop? none, _, hproper, _, hlost, ts, hts => by
    intro s rest item hreads
    obtain ⟨us, colon, ws, rfl, hus, hcolon, hws⟩ := exists_of_infix hts
    obtain ⟨vs, colon', xs, rfl, hvs, hcolon', hxs⟩ := exists_of_infix hws
    obtain ⟨step, rfl, hstep⟩ := List.map_eq_singleton_iff.1 hxs
    have hcolon := kind_of_shape hcolon
    have hrest {token : Token} {start? : Option Int} : Refuses (fun s =>
        Parser.sliceRest dialect token start? s) (vs ++ [colon', step]) := fun s rest item =>
      not_reads_sliceRest (bound_of_shapes hproper.2.1 hvs) (kind_of_shape hcolon') hstep hlost
    rw [Parser.reads_selector_iff] at hreads
    cases start? with
    | none =>
      obtain rfl := List.map_eq_nil_iff.1 hus
      simp only [List.nil_append, Stream.peek_prepend_cons, Stream.advance_prepend_cons, hcolon,
        reduceCtorEq, false_and, true_and, or_self, false_or, or_false] at hreads
      exact hrest s rest item hreads
    | some start =>
      obtain ⟨token, rfl, htoken⟩ := List.map_eq_singleton_iff.1 hus
      simp only [List.cons_append, List.nil_append, Stream.peek_prepend_cons,
        Stream.advance_prepend_cons, kind_of_shape htoken, hcolon, reduceCtorEq, false_and,
        true_and, or_self, or_false, ne_eq, not_true_eq_false] at hreads
      obtain ⟨n, -, hreads⟩ := hreads
      exact hrest s rest item hreads
  | .filter _ e, htyped, hproper, hfinite, hlost, ts, hts => by
    intro s rest item hreads
    obtain ⟨mark, us, rfl, hmark, hus⟩ := List.map_eq_cons_iff.1 hts
    rw [Parser.reads_selector_iff] at hreads
    simp only [Stream.peek_prepend_cons, Stream.advance_prepend_cons, kind_of_shape hmark,
      reduceCtorEq, false_and, true_and, or_self, false_or] at hreads
    obtain ⟨e', he', -⟩ := hreads
    exact (Expr.unread e htyped hproper.1 hfinite hlost us hus).2 _ (by decide) _ _ _ he'

theorem selectors_unread : ∀ sels : List Selector, selectorsWellTyped dialect.signatures sels →
    selectorsProper dialect sels → selectorsAreFinite sels = true →
    ¬ selectorsRestore dialect sels → ∀ ts : List Token, ts.map Token.shape = selectorShapes sels →
    Refuses (Parser.selectors dialect) ts
  | [], _, _, _, hlost, _, _ => absurd trivial hlost
  | [sel], htyped, hproper, hfinite, hlost, ts, hts => by
    intro s rest item hreads
    obtain ⟨hfinite, -⟩ := Bool.and_eq_true_iff.1 hfinite
    have hsel : ¬ sel.Restores dialect := fun hsel => hlost ⟨hsel, trivial⟩
    obtain ⟨first, s₁, hfirst, -⟩ := Parser.reads_selectors_iff.1 hreads
    exact Selector.unread sel htyped.1 hproper.1 hfinite hsel ts hts _ _ _ hfirst
  | sel :: next :: more, htyped, hproper, hfinite, hlost, ts, hts => by
    intro s rest item hreads
    obtain ⟨hfinite, hfinites⟩ := Bool.and_eq_true_iff.1 hfinite
    obtain ⟨us, comma, vs, rfl, hus, hcomma, hvs⟩ := exists_of_infix hts
    have hcomma := kind_of_shape hcomma
    rw [Stream.prepend_append] at hreads
    obtain ⟨first, s₁, hfirst, hrest⟩ := Parser.reads_selectors_iff.1 hreads
    by_cases hsel : sel.Restores dialect
    · have hmore : ¬ selectorsRestore dialect (next :: more) := fun h => hlost ⟨hsel, h⟩
      obtain ⟨sel', -, h⟩ := sel.regained htyped.1 hproper.1 hsel hfinite us hus
      obtain ⟨-, rfl⟩ := hfirst.unique (h.accepted _ (.inl hcomma))
      rcases hrest with ⟨hclose, -⟩ | ⟨-, -, sels, hsels, -⟩
      · cases hcomma.symm.trans hclose
      · exact selectors_unread (next :: more) htyped.2 hproper.2 hfinites hmore vs hvs _ _ _ hsels
    · exact Selector.unread sel htyped.1 hproper.1 hfinite hsel us hus _ _ _ hfirst

theorem Segment.unread : ∀ seg : Segment, seg.WellTyped dialect.signatures →
    seg.Proper dialect → seg.isFinite = true → ¬ seg.Restores dialect →
    ∀ ts : List Token, ts.map Token.shape = selectorShapes seg.selectors →
    Refuses (Parser.selectors dialect) ts
  | .child _ sels, htyped, hproper, hfinite, hlost | .descendant _ sels, htyped, hproper, hfinite,
    hlost => selectors_unread sels htyped hproper.2 hfinite hlost

theorem segments_unread : ∀ segs : List Segment, segmentsWellTyped dialect.signatures segs →
    segmentsProper dialect segs → segmentsAreFinite segs = true → ¬ segmentsRestore dialect segs →
    ∀ ts : List Token, ts.map Token.shape = segmentsShapes segs →
    Refuses (Parser.segments dialect) ts
  | [], _, _, _, hlost, _, _ => absurd trivial hlost
  | seg :: more, htyped, hproper, hfinite, hlost, ts, hts => by
    intro s rest item hreads
    obtain ⟨hfinite, hfinites⟩ := Bool.and_eq_true_iff.1 hfinite
    obtain ⟨ws, xs, rfl, hws, hxs⟩ := List.map_eq_append_iff.1 hts
    obtain ⟨us, closing, hus, hclosing, hsplit⟩ := @exists_reads_selectors dialect _ _ hws
    rw [Stream.prepend_append] at hreads
    obtain ⟨first, s₁, rests, hfirst, hrest⟩ := hsplit _ _ _ hreads
    by_cases hseg : seg.Restores dialect
    · have hmore : ¬ segmentsRestore dialect more := fun h => hlost ⟨hseg, h⟩
      obtain ⟨sels, h⟩ := Segment.derives_selectors htyped.1 hproper.1 hseg hfinite hus
      obtain ⟨-, rfl⟩ := hfirst.unique (h.accepted _ hclosing)
      exact segments_unread more htyped.2 hproper.2 hfinites hmore xs hxs s rest rests hrest
    · exact Segment.unread seg htyped.1 hproper.1 hfinite hseg us hus _ _ _ hfirst

end

end JsonPath
