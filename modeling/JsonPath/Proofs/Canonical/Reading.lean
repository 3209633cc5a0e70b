import JsonPath.Proofs.Canonical.Joined
import JsonPath.Proofs.Canonical.Tokens

/-!
# Canonical tokens are read back

The tokens of a canonical text are derived, and what is derived is the query again, up to its
tokens, the steps that its slices leave out and the pairs of surrogates in its literals. Three
things stand against it: the parentheses around a comparison are left out after a `!`, the implied
step of a slice is written, so it has to be allowed as an index, and a surrogate that stands alone
is written by its number, which is not read.
-/

namespace JsonPath

open Grammar

variable {dialect : Dialect}

/-! ### Leaves -/

/-- A zero that starts the whole part is all of it. -/
def Numeral.IsTerse (n : Numeral) : Prop := n.whole = [('0' : CodePoint)] ∨ n.whole.head? ≠ some '0'

theorem Numeral.isTerse_ofInteger (i : Int) : (Numeral.ofInteger i).IsTerse := by
  unfold IsTerse ofInteger
  by_cases hzero : i.natAbs = 0
  · rw [hzero]
    exact .inl rfl
  · exact .inr (head?_digits hzero)

theorem Numeral.hasLeadingZero_of_spells {n : Numeral} {text : List CodePoint} (h : n.Spells text)
    (hterse : n.IsTerse) : Parser.hasLeadingZero text = false := by
  obtain ⟨hne, hdigits, fraction, exponent, hfraction, hexponent, rfl⟩ := h
  obtain ⟨c, cs, hwhole⟩ := List.exists_cons_of_ne_nil hne
  have hnil : EndsNumber [] := by simp [EndsNumber]
  have hend := head?_exponent hexponent hnil
  have hnext := head?_fraction hfraction fun d hd => (hend d hd).1
  unfold IsTerse at hterse
  rw [hwhole] at hdigits hterse ⊢
  unfold Parser.hasLeadingZero
  rw [List.cons_append, splitMinus_minus n.negative (hdigits c List.mem_cons_self)]
  rw [List.append_nil] at hnext
  rcases hterse with hzero | hother
  · obtain ⟨rfl, rfl⟩ := List.cons.inj hzero
    rw [List.nil_append]
    cases hmore : fraction ++ exponent with
    | nil => rfl
    | cons d more => exact hnext d (by simp [hmore])
  · split
    next heq => simp [(List.cons.inj heq).1] at hother
    · rfl

theorem hasIdleZero_ofInt (i : Int) : Parser.hasIdleZero (Text.ofInt i).toList = false := by
  rw [toList_ofInt]
  unfold Parser.hasIdleZero
  by_cases hzero : i.natAbs = 0
  · obtain rfl : i = 0 := Int.natAbs_eq_zero.1 hzero
    rfl
  · obtain ⟨c, cs, hcs⟩ := List.exists_cons_of_ne_nil (Text.digits_ne_nil 10 i.natAbs)
    have hhead := head?_digits hzero
    rw [hcs] at hhead ⊢
    have hc : c ≠ '0' := by simpa using hhead
    have hminus : c ≠ '-' := by
      have hdigit : c.isDigit = true := isDigit_of_mem_digits (hcs ▸ List.mem_cons_self)
      rintro rfl
      cases hdigit
    cases decide (i < 0) <;>
      simp [Numeral.minus, List.isPrefixOf, beq_false_of_ne hc.symm, beq_false_of_ne hminus.symm]

theorem isShort_one : IsShort 1 := by
  unfold IsShort
  decide

/-- The token of an index. -/
theorem Dialect.Allows.index {i : Int} (h : dialect.Allows i) {token : Token}
    (htoken : token.shape = integerShape i) : Index dialect token i := by
  obtain ⟨hkind, htext⟩ := Prod.mk.inj htoken
  refine ⟨hkind, ?_, ?_, h.least, h.greatest⟩
  · rw [htext]
    exact hasIdleZero_ofInt i
  · rw [htext]
    exact ⟨_, Numeral.spells_ofInteger i, rfl, h.short, Numeral.integerValue_ofInteger i⟩

/-- The token of a string literal stands for the joined text, if that holds no surrogate. -/
theorem literalText_of_stringShape {s t : Text} {token : Token}
    (htoken : token.shape = (Literal.string s).shape) :
    token.literalText = .ok t ↔ t = s.joined ∧ ∀ c ∈ t.toList, c.IsScalar := by
  obtain ⟨hkind, htext⟩ := Prod.mk.inj htoken
  have hquote : Lexer.quoteKind? '"' = some .doubleQuoted := rfl
  rw [Token.literalText_eq hquote hkind, htext, Text.toList_ofList, ← Text.toList_inj (a := t),
    ← Text.decode_jsonChar_eq_ok_iff]
  cases StringLiteral.decode '"' (s.toList.flatMap Text.jsonChar) with
  | error fault => exact iff_of_false (by nofun) (by nofun)
  | ok cs =>
    constructor
    · rintro ⟨⟩
      rfl
    · rintro ⟨⟩
      rfl

/-- No surrogate is left in the literal when its pairs are joined. -/
def Literal.Restores : Literal → Prop
  | .string s => ∀ c ∈ s.joined.toList, c.IsScalar
  | _ => True

/-- The token of a literal. -/
theorem Literal.Proper.writes {literal : Literal} (h : literal.Proper)
    (hrestores : literal.Restores) (hfinite : literal.isFinite = true) {token : Token}
    (htoken : token.shape = literal.shape) : Writes token literal.joined := by
  match literal, h, hfinite with
  | .null, _, _ => exact .null (Prod.mk.inj htoken).1
  | .boolean true, _, _ => exact .true (Prod.mk.inj htoken).1
  | .boolean false, _, _ => exact .false (Prod.mk.inj htoken).1
  | .number (.integer n), h, _ =>
    unfold joined
    obtain ⟨hkind, htext⟩ := Prod.mk.inj htoken
    have hspells := Numeral.spells_ofInteger n
    have hleading := Numeral.hasLeadingZero_of_spells hspells (Numeral.isTerse_ofInteger n)
    rw [← htext] at hspells hleading
    rw [← Numeral.integerValue_ofInteger n]
    exact .integer hkind hleading hspells rfl h
  | .number (.double (.finite negative m)), _, _ =>
    unfold joined
    obtain ⟨hkind, htext⟩ := Prod.mk.inj htoken
    obtain ⟨n, hspells, -, hwhole, hdouble⟩ := Layout.reads_magnitude .json negative m
    rw [← Layout.toList_double_finite] at hspells
    have hleading := Numeral.hasLeadingZero_of_spells hspells hwhole
    rw [← htext] at hspells hleading
    rw [← hdouble]
    exact .decimal hkind hleading hspells
  | .string s, _, _ =>
    exact .string (.inr (Prod.mk.inj htoken).1)
      ((literalText_of_stringShape htoken).2 ⟨rfl, hrestores⟩)

/-- The token of a name. -/
theorem literalText_of_nameShape {name : Text} {token : Token}
    (htoken : token.shape = nameShape name) : token.literalText = .ok name := by
  obtain ⟨hkind, htext⟩ := Prod.mk.inj htoken
  have hdecode : StringLiteral.decode '\'' (name.toList.flatMap Text.nameChar) = .ok name.toList :=
    StringLiteral.decode_flatMap (.inl rfl) fun c _ => Text.spelled_nameChar c
  have hquote : Lexer.quoteKind? '\'' = some .singleQuoted := rfl
  rw [Token.literalText_eq hquote hkind, htext, Text.toList_ofList, hdecode]
  rfl

theorem bound_of_shapes {i? : Option Int} (h : ∀ i ∈ i?, dialect.Allows i) {ts : List Token}
    (hts : ts.map Token.shape = (i?.map integerShape).toList) : Bound dialect ts i? := by
  cases i? with
  | none =>
    obtain rfl := List.map_eq_nil_iff.1 hts
    exact .absent
  | some i =>
    obtain ⟨token, rfl, htoken⟩ := List.map_eq_singleton_iff.1 hts
    exact .present ((h i rfl).index htoken)

/-! ### What is not read back -/

def Expr.IsComparison : Expr → Prop
  | .comparison _ _ _ _ => True
  | _ => False

mutual

/-- No comparison is negated, 1 is in the bounds of indices wherever a slice implies it, and no
surrogate stands alone in a literal. -/
def Expr.Restores (dialect : Dialect) : Expr → Prop
  | .literal _ literal => literal.Restores
  | .negation _ operand => ¬ operand.IsComparison ∧ operand.Restores dialect
  | .conjunction _ left right => left.Restores dialect ∧ right.Restores dialect
  | .disjunction _ left right => left.Restores dialect ∧ right.Restores dialect
  | .comparison _ left _ right => left.Restores dialect ∧ right.Restores dialect
  | .relative _ segments => segmentsRestore dialect segments
  | .absolute _ segments => segmentsRestore dialect segments
  | .call _ _ arguments => argumentsRestore dialect arguments

def argumentsRestore (dialect : Dialect) : List Expr → Prop
  | [] => True
  | argument :: rest => argument.Restores dialect ∧ argumentsRestore dialect rest

def Selector.Restores (dialect : Dialect) : Selector → Prop
  | .slice _ _ _ none => dialect.leastIndex ≤ 1 ∧ 1 ≤ dialect.greatestIndex
  | .filter _ expression => expression.Restores dialect
  | _ => True

def selectorsRestore (dialect : Dialect) : List Selector → Prop
  | [] => True
  | selector :: rest => selector.Restores dialect ∧ selectorsRestore dialect rest

def Segment.Restores (dialect : Dialect) : Segment → Prop
  | .child _ selectors => selectorsRestore dialect selectors
  | .descendant _ selectors => selectorsRestore dialect selectors

def segmentsRestore (dialect : Dialect) : List Segment → Prop
  | [] => True
  | segment :: rest => segment.Restores dialect ∧ segmentsRestore dialect rest

end

/-! ### Expressions -/

/-- The tokens are derived as an expression of this form is written, with the expression itself. -/
def Expr.Regained (dialect : Dialect) (e : Expr) (ts : List Token) (e' : Expr) : Prop :=
  e'.bare = e.joined.bare ∧ match e with
    | .literal _ _ => Derives dialect .literal ts e'
    | .comparison _ _ _ _ => Derives dialect .basic ts e'
    | .relative _ _ | .absolute _ _ => Derives dialect .path ts e'
    | .call _ _ _ => Derives dialect .call ts e'
    | .negation _ _ | .conjunction _ _ _ | .disjunction _ _ _ => Derives dialect .unary ts e'

namespace Expr.Regained

variable {e e' : Expr} {ts : List Token}

theorem unary (h : e.Regained dialect ts e') (hliteral : ¬ e.IsLiteral)
    (hcomparison : ¬ e.IsComparison) : Derives dialect .unary ts e' := by
  obtain ⟨-, h⟩ := h
  cases e with
  | literal => exact absurd ⟨_, _, rfl⟩ hliteral
  | comparison => exact absurd trivial hcomparison
  | relative | absolute => exact .unaryPath h
  | call => exact .unaryCall h
  | negation | conjunction | disjunction => exact h

theorem basic (h : e.Regained dialect ts e') (hliteral : ¬ e.IsLiteral) :
    Derives dialect .basic ts e' := by
  by_cases hcomparison : e.IsComparison
  · obtain ⟨-, h⟩ := h
    cases e with
    | comparison => exact h
    | _ => exact hcomparison.elim
  · exact .oneUnary (h.unary hliteral hcomparison)

theorem disjunction (h : e.Regained dialect ts e') (hliteral : ¬ e.IsLiteral) :
    Derives dialect .disjunction ts e' :=
  .oneConjunction (.oneBasic (h.basic hliteral))

theorem argument (h : e.Regained dialect ts e') : Derives dialect .argument ts e' := by
  by_cases hliteral : e.IsLiteral
  · obtain ⟨token, literal, rfl⟩ := hliteral
    exact .literalArgument h.2
  · exact .logicalArgument (h.disjunction hliteral)

theorem isTest (h : e.Regained dialect ts e') (he : IsTest dialect.signatures e) :
    IsTest dialect.signatures e' := by
  unfold IsTest at he ⊢
  rwa [← Expr.resultType?_bare e', h.1, Expr.resultType?_bare, Expr.resultType?_joined]

theorem comparable (h : e.Regained dialect ts e') (he : e.IsComparable dialect.signatures) :
    Derives dialect .comparable ts e' := by
  obtain ⟨hbare, h⟩ := h
  rcases he with ⟨token, literal, rfl⟩ | hsingular | hvalue
  · exact .comparableLiteral h
  · have hsingular' : e'.isSingularQuery = true := by
      rwa [← Expr.isSingularQuery_bare e', hbare, Expr.isSingularQuery_bare,
        Expr.isSingularQuery_joined]
    cases e with
    | relative | absolute => exact .comparablePath h hsingular'
    | _ => cases hsingular
  · have hvalue' : e'.resultType? dialect.signatures = some .value := by
      rwa [← Expr.resultType?_bare e', hbare, Expr.resultType?_bare, Expr.resultType?_joined]
    cases e with
    | call => exact .comparableCall h hvalue'
    | _ => cases hvalue

end Expr.Regained

/-! ### Tokens of given shapes -/

variable {ts : List Token} {ss ss' : List Shape} {s s' : Shape}

theorem exists_of_infix (h : ts.map Token.shape = ss ++ s :: ss') :
    ∃ us t vs, ts = us ++ t :: vs ∧ us.map Token.shape = ss ∧ t.shape = s ∧
      vs.map Token.shape = ss' := by
  obtain ⟨us, tvs, rfl, hus, htvs⟩ := List.map_eq_append_iff.1 h
  obtain ⟨t, vs, rfl, ht, hvs⟩ := List.map_eq_cons_iff.1 htvs
  exact ⟨us, t, vs, rfl, hus, ht, hvs⟩

theorem exists_of_enclosed (h : ts.map Token.shape = s :: (ss ++ [s'])) :
    ∃ t us u, ts = t :: (us ++ [u]) ∧ t.shape = s ∧ us.map Token.shape = ss ∧ u.shape = s' := by
  obtain ⟨t, usu, rfl, ht, husu⟩ := List.map_eq_cons_iff.1 h
  obtain ⟨us, u, rest, rfl, hus, hu, hrest⟩ := exists_of_infix husu
  obtain rfl := List.map_eq_nil_iff.1 hrest
  exact ⟨t, us, u, rfl, ht, hus, hu⟩

/-- Two operands between parentheses. -/
theorem exists_of_group {opening closing : Shape}
    (h : ts.map Token.shape = opening :: (ss ++ s :: (ss' ++ [closing]))) :
    ∃ t us operator vs u, ts = t :: ((us ++ operator :: vs) ++ [u]) ∧ t.shape = opening ∧
      us.map Token.shape = ss ∧ operator.shape = s ∧ vs.map Token.shape = ss' ∧
      u.shape = closing := by
  have henclosed : ts.map Token.shape = opening :: ((ss ++ s :: ss') ++ [closing]) := by
    rw [h, List.append_assoc, List.cons_append]
  obtain ⟨t, ws, u, rfl, ht, hws, hu⟩ := exists_of_enclosed henclosed
  obtain ⟨us, operator, vs, rfl, hus, hoperator, hvs⟩ := exists_of_infix hws
  exact ⟨t, us, operator, vs, u, rfl, ht, hus, hoperator, hvs, hu⟩

theorem kind_of_shape {t : Token} {kind : TokenKind} {text : Text}
    (h : t.shape = (kind, text)) : t.kind = kind := (Prod.mk.inj h).1

theorem Comparison.comparison?_kind (operator : Comparison) :
    Parser.comparison? operator.kind = some operator := by
  cases operator <;> rfl

theorem bareArguments_eq_map (given : List Expr) : bareArguments given = given.map Expr.bare := by
  induction given with
  | nil => rfl
  | cons e given ih => rw [bareArguments, ih, List.map_cons]

theorem Grammar.declared_of_bare {signatures : Signatures} {name : Text}
    {given given' : List Expr}
    (hbare : bareArguments given' = bareArguments (joinedArguments given))
    (h : Declared signatures name given) : Declared signatures name given' := by
  obtain ⟨signature, hname, hfits⟩ := h
  refine ⟨signature, hname, ?_⟩
  have hmap (given : List Expr) :
      List.Forall₂ (fun e parameter => e.fits signatures parameter = true) (bareArguments given)
        signature.parameters ↔
      List.Forall₂ (fun e parameter => e.fits signatures parameter = true) given
        signature.parameters := by
    rw [bareArguments_eq_map, List.forall₂_map_left_iff]
    simp only [Expr.fits_bare]
  rw [← hmap, hbare, hmap, joinedArguments_eq_map, List.forall₂_map_left_iff]
  simpa only [Expr.fits_joined] using hfits

theorem derives_of_enclosed {opening closing : Token} {e : Expr}
    (h : Derives dialect .disjunction ts e) (htest : IsTest dialect.signatures e)
    (hopening : opening.shape = ((.openParen, "(") : Shape))
    (hclosing : closing.shape = ((.closeParen, ")") : Shape)) :
    Derives dialect .unary (opening :: (ts ++ [closing])) e :=
  .group (kind_of_shape hopening) h htest (kind_of_shape hclosing)

mutual

theorem Expr.regained : ∀ e : Expr, e.WellTyped dialect.signatures → e.Proper dialect →
    e.Restores dialect → e.isFinite = true → ∀ ts : List Token, ts.map Token.shape = e.shapes →
    ∃ e', e.Regained dialect ts e'
  | .literal _ value, _, hproper, hrestores, hfinite, ts, hts => by
    obtain ⟨token, rfl, htoken⟩ := List.map_eq_singleton_iff.1 hts
    exact ⟨.literal token value.joined, rfl,
      .literal (Literal.Proper.writes hproper hrestores hfinite htoken)⟩
  | .negation _ operand, htyped, hproper, hrestores, hfinite, ts, hts => by
    obtain ⟨not, us, rfl, hnot, hus⟩ := List.map_eq_cons_iff.1 hts
    obtain ⟨operand', h⟩ :=
      Expr.regained operand htyped hproper.1 hrestores.2 hfinite us hus
    refine ⟨.negation not operand', congrArg (Expr.negation .blank) h.1, ?_⟩
    exact .negation (kind_of_shape hnot) (h.unary hproper.2.1 hrestores.1) (h.isTest hproper.2.2)
  | .conjunction _ left right, htyped, hproper, hrestores, hfinite, ts, hts => by
    obtain ⟨hleft, hright⟩ := Bool.and_eq_true_iff.1 hfinite
    obtain ⟨opening, us, and, vs, closing, rfl, hopening, hus, hand, hvs, hclosing⟩ :=
      exists_of_group hts
    obtain ⟨left', hl⟩ := Expr.regained left htyped.1 hproper.1 hrestores.1 hleft us hus
    obtain ⟨right', hr⟩ := Expr.regained right htyped.2 hproper.2.1 hrestores.2 hright vs hvs
    obtain ⟨-, -, hltest, hrtest⟩ := hproper
    refine ⟨.conjunction and left' right', ?_, ?_⟩
    · exact congrArg₂ (Expr.conjunction .blank) hl.1 hr.1
    · refine derives_of_enclosed (.oneConjunction ?_) (by simp [IsTest, Expr.resultType?]) hopening
        hclosing
      exact .conjunction (.oneBasic (hl.basic hltest.1)) (kind_of_shape hand) (hr.basic hrtest.1)
        (hl.isTest hltest.2) (hr.isTest hrtest.2)
  | .disjunction _ left right, htyped, hproper, hrestores, hfinite, ts, hts => by
    obtain ⟨hleft, hright⟩ := Bool.and_eq_true_iff.1 hfinite
    obtain ⟨opening, us, or, vs, closing, rfl, hopening, hus, hor, hvs, hclosing⟩ :=
      exists_of_group hts
    obtain ⟨left', hl⟩ := Expr.regained left htyped.1 hproper.1 hrestores.1 hleft us hus
    obtain ⟨right', hr⟩ := Expr.regained right htyped.2 hproper.2.1 hrestores.2 hright vs hvs
    obtain ⟨-, -, hltest, hrtest⟩ := hproper
    refine ⟨.disjunction or left' right', ?_, ?_⟩
    · exact congrArg₂ (Expr.disjunction .blank) hl.1 hr.1
    · refine derives_of_enclosed ?_ (by simp [IsTest, Expr.resultType?]) hopening hclosing
      exact .disjunction (hl.disjunction hltest.1) (kind_of_shape hor)
        (.oneBasic (hr.basic hrtest.1)) (hl.isTest hltest.2) (hr.isTest hrtest.2)
  | .comparison _ left operator right, htyped, hproper, hrestores, hfinite, ts, hts => by
    obtain ⟨hleft, hright⟩ := Bool.and_eq_true_iff.1 hfinite
    obtain ⟨us, sign, vs, rfl, hus, hsign, hvs⟩ := exists_of_infix hts
    obtain ⟨htl, htr, hcl, hcr⟩ := htyped
    obtain ⟨left', hl⟩ := Expr.regained left htl hproper.1 hrestores.1 hleft us hus
    obtain ⟨right', hr⟩ := Expr.regained right htr hproper.2 hrestores.2 hright vs hvs
    refine ⟨.comparison sign left' operator right', ?_, ?_⟩
    · exact congrArg₂ (Expr.comparison .blank · operator ·) hl.1 hr.1
    · refine .comparison (hl.comparable hcl) ?_ (hr.comparable hcr)
      rw [kind_of_shape hsign]
      exact operator.comparison?_kind
  | .relative _ segments, htyped, hproper, hrestores, hfinite, ts, hts => by
    obtain ⟨current, us, rfl, hcurrent, hus⟩ := List.map_eq_cons_iff.1 hts
    obtain ⟨segs, hbare, h⟩ := segments_regained segments htyped hproper hrestores hfinite us hus
    exact ⟨.relative current segs, congrArg (Expr.relative .blank) hbare,
      .relative (kind_of_shape hcurrent) h⟩
  | .absolute _ segments, htyped, hproper, hrestores, hfinite, ts, hts => by
    obtain ⟨root, us, rfl, hroot, hus⟩ := List.map_eq_cons_iff.1 hts
    obtain ⟨segs, hbare, h⟩ := segments_regained segments htyped hproper hrestores hfinite us hus
    exact ⟨.absolute root segs, congrArg (Expr.absolute .blank) hbare,
      .absolute (kind_of_shape hroot) h⟩
  | .call _ name given, htyped, hproper, hrestores, hfinite, ts, hts => by
    obtain ⟨function, ws, rfl, hfunction, hws⟩ := List.map_eq_cons_iff.1 hts
    obtain ⟨opening, us, closing, rfl, hopening, hus, hclosing⟩ := exists_of_enclosed hws
    obtain ⟨hkind, rfl⟩ := Prod.mk.inj hfunction
    by_cases hnil : given = []
    · subst hnil
      obtain rfl := List.map_eq_nil_iff.1 hus
      exact ⟨.call function function.text [], rfl,
        .emptyCall hkind (kind_of_shape hopening) (kind_of_shape hclosing) htyped.2⟩
    · obtain ⟨given', hbare, h⟩ :=
        arguments_regained given hnil htyped.1 hproper.2 hrestores hfinite us hus
      exact ⟨.call function function.text given', congrArg (Expr.call .blank _) hbare,
        .call hkind (kind_of_shape hopening) h (kind_of_shape hclosing)
          (declared_of_bare hbare htyped.2)⟩

theorem arguments_regained : ∀ given : List Expr, given ≠ [] →
    argumentsWellTyped dialect.signatures given → argumentsProper dialect given →
    argumentsRestore dialect given → argumentsAreFinite given = true →
    ∀ ts : List Token, ts.map Token.shape = argumentShapes given →
    ∃ given', bareArguments given' = bareArguments (joinedArguments given) ∧
      Derives dialect .arguments ts given'
  | [e], _, htyped, hproper, hrestores, hfinite, ts, hts => by
    obtain ⟨hfinite, -⟩ := Bool.and_eq_true_iff.1 hfinite
    obtain ⟨e', h⟩ := Expr.regained e htyped.1 hproper.1 hrestores.1 hfinite ts hts
    exact ⟨[e'], congrArg ([·]) h.1, .lastArgument h.argument⟩
  | e :: next :: more, _, htyped, hproper, hrestores, hfinite, ts, hts => by
    obtain ⟨hfinite, hfinites⟩ := Bool.and_eq_true_iff.1 hfinite
    obtain ⟨us, comma, vs, rfl, hus, hcomma, hvs⟩ := exists_of_infix hts
    obtain ⟨e', h⟩ := Expr.regained e htyped.1 hproper.1 hrestores.1 hfinite us hus
    obtain ⟨given', hbare, hgiven⟩ := arguments_regained (next :: more) (by simp) htyped.2 hproper.2
      hrestores.2 hfinites vs hvs
    exact ⟨e' :: given', congrArg₂ (· :: ·) h.1 hbare,
      .moreArguments h.argument (kind_of_shape hcomma) hgiven⟩

theorem Selector.regained : ∀ sel : Selector, sel.WellTyped dialect.signatures →
    sel.Proper dialect → sel.Restores dialect → sel.isFinite = true →
    ∀ ts : List Token, ts.map Token.shape = sel.shapes →
    ∃ sel', sel'.bare = sel.joined.bare ∧ Derives dialect .selector ts sel'
  | .name _ name, _, _, _, _, ts, hts => by
    obtain ⟨token, rfl, htoken⟩ := List.map_eq_singleton_iff.1 hts
    exact ⟨.name token name, rfl,
      .name (.inl (kind_of_shape htoken)) (literalText_of_nameShape htoken)⟩
  | .index _ i, _, hproper, _, _, ts, hts => by
    obtain ⟨token, rfl, htoken⟩ := List.map_eq_singleton_iff.1 hts
    exact ⟨.index token i, rfl, .index (Dialect.Allows.index hproper htoken)⟩
  | .wildcard _, _, _, _, _, ts, hts => by
    obtain ⟨token, rfl, htoken⟩ := List.map_eq_singleton_iff.1 hts
    exact ⟨.wildcard token, rfl, .wildcard (kind_of_shape htoken)⟩
  | .slice _ start? stop? step?, _, hproper, hrestores, _, ts, hts => by
    obtain ⟨us, colon, ws, rfl, hus, hcolon, hws⟩ := exists_of_infix hts
    obtain ⟨vs, colon', xs, rfl, hvs, hcolon', hxs⟩ := exists_of_infix hws
    obtain ⟨step, rfl, hstep⟩ := List.map_eq_singleton_iff.1 hxs
    obtain ⟨hstart, hstop, hsteps⟩ := hproper
    -- A step that the slice leaves out is written all the same.
    have hallows : dialect.Allows (step?.getD 1) := by
      cases step? with
      | none => exact ⟨isShort_one, hrestores.1, hrestores.2⟩
      | some step => exact hsteps step rfl
    exact ⟨.slice (us.headD colon) start? stop? (some (step?.getD 1)), rfl,
      .slice (bound_of_shapes hstart hus) (kind_of_shape hcolon) (bound_of_shapes hstop hvs)
        (.present (kind_of_shape hcolon') (.present (hallows.index hstep)))⟩
  | .filter _ e, htyped, hproper, hrestores, hfinite, ts, hts => by
    obtain ⟨mark, us, rfl, hmark, hus⟩ := List.map_eq_cons_iff.1 hts
    obtain ⟨e', h⟩ := Expr.regained e htyped hproper.1 hrestores hfinite us hus
    exact ⟨.filter mark e', congrArg (Selector.filter .blank) h.1,
      .filter (kind_of_shape hmark) (h.disjunction hproper.2.1) (h.isTest hproper.2.2)⟩

theorem selectors_regained : ∀ sels : List Selector, sels ≠ [] →
    selectorsWellTyped dialect.signatures sels → selectorsProper dialect sels →
    selectorsRestore dialect sels → selectorsAreFinite sels = true →
    ∀ ts : List Token, ts.map Token.shape = selectorShapes sels →
    ∃ sels', bareSelectors sels' = bareSelectors (joinedSelectors sels) ∧
      Derives dialect .selectors ts sels'
  | [sel], _, htyped, hproper, hrestores, hfinite, ts, hts => by
    obtain ⟨hfinite, -⟩ := Bool.and_eq_true_iff.1 hfinite
    obtain ⟨sel', hbare, h⟩ := Selector.regained sel htyped.1 hproper.1 hrestores.1 hfinite ts hts
    exact ⟨[sel'], congrArg ([·]) hbare, .lastSelector h⟩
  | sel :: next :: more, _, htyped, hproper, hrestores, hfinite, ts, hts => by
    obtain ⟨hfinite, hfinites⟩ := Bool.and_eq_true_iff.1 hfinite
    obtain ⟨us, comma, vs, rfl, hus, hcomma, hvs⟩ := exists_of_infix hts
    obtain ⟨sel', hbare, h⟩ := Selector.regained sel htyped.1 hproper.1 hrestores.1 hfinite us hus
    obtain ⟨sels', hbares, hsels⟩ := selectors_regained (next :: more) (by simp) htyped.2 hproper.2
      hrestores.2 hfinites vs hvs
    exact ⟨sel' :: sels', congrArg₂ (· :: ·) hbare hbares,
      .moreSelectors h (kind_of_shape hcomma) hsels⟩

theorem Segment.regained : ∀ seg : Segment, seg.WellTyped dialect.signatures →
    seg.Proper dialect → seg.Restores dialect → seg.isFinite = true →
    ∀ ts : List Token, ts.map Token.shape = seg.shapes →
    ∃ seg', seg'.bare = seg.joined.bare ∧ Derives dialect .segment ts seg'
  | .child _ sels, htyped, hproper, hrestores, hfinite, ts, hts => by
    obtain ⟨opening, us, closing, rfl, hopening, hus, hclosing⟩ := exists_of_enclosed hts
    obtain ⟨sels', hbare, h⟩ :=
      selectors_regained sels hproper.1 htyped hproper.2 hrestores hfinite us hus
    exact ⟨.child opening sels', congrArg (Segment.child .blank) hbare,
      .childBracketed (.bracketed (kind_of_shape hopening) h (kind_of_shape hclosing))⟩
  | .descendant _ sels, htyped, hproper, hrestores, hfinite, ts, hts => by
    obtain ⟨dots, ws, rfl, hdots, hws⟩ := List.map_eq_cons_iff.1 hts
    obtain ⟨opening, us, closing, rfl, hopening, hus, hclosing⟩ := exists_of_enclosed hws
    obtain ⟨sels', hbare, h⟩ :=
      selectors_regained sels hproper.1 htyped hproper.2 hrestores hfinite us hus
    exact ⟨.descendant dots sels', congrArg (Segment.descendant .blank) hbare,
      .descendantBracketed (kind_of_shape hdots)
        (.bracketed (kind_of_shape hopening) h (kind_of_shape hclosing))⟩

theorem segments_regained : ∀ segs : List Segment,
    segmentsWellTyped dialect.signatures segs → segmentsProper dialect segs →
    segmentsRestore dialect segs → segmentsAreFinite segs = true →
    ∀ ts : List Token, ts.map Token.shape = segmentsShapes segs →
    ∃ segs', bareSegments segs' = bareSegments (joinedSegments segs) ∧
      Derives dialect .segments ts segs'
  | [], _, _, _, _, ts, hts => by
    obtain rfl := List.map_eq_nil_iff.1 hts
    exact ⟨[], rfl, .noSegments⟩
  | seg :: more, htyped, hproper, hrestores, hfinite, ts, hts => by
    obtain ⟨hfinite, hfinites⟩ := Bool.and_eq_true_iff.1 hfinite
    obtain ⟨us, vs, rfl, hus, hvs⟩ := List.map_eq_append_iff.1 hts
    obtain ⟨seg', hbare, h⟩ := Segment.regained seg htyped.1 hproper.1 hrestores.1 hfinite us hus
    obtain ⟨segs', hbares, hsegs⟩ :=
      segments_regained more htyped.2 hproper.2 hrestores.2 hfinites vs hvs
    exact ⟨seg' :: segs', congrArg₂ (· :: ·) hbare hbares, .moreSegments h hsegs⟩

end

end JsonPath
