import JsonPath.Proofs.Canonical.Legibility
import JsonPath.Proofs.Canonical.RoundTrip

/-!
# Canonical texts are unambiguous

Two compiled queries of one text are one query but for their tokens, their implied steps and the
surrogates that one of them may hold in pairs where the other has one character. The operands of
comparisons carry no parentheses, so an expression is read in two ways: as an operand, which ends
where any operand does, and as a whole, after which no comparison may stand.
-/

namespace JsonPath

open Lexer (Stops)

variable {dialect : Dialect}

/-! ### Well-formed trees -/

/-- What the compilation of a text says about an expression in it. -/
structure Expr.WellFormed (dialect : Dialect) (e : Expr) : Prop where
  typed : e.WellTyped dialect.signatures
  proper : e.Proper dialect

structure Selector.WellFormed (dialect : Dialect) (sel : Selector) : Prop where
  typed : sel.WellTyped dialect.signatures
  proper : sel.Proper dialect

structure Segment.WellFormed (dialect : Dialect) (seg : Segment) : Prop where
  typed : seg.WellTyped dialect.signatures
  proper : seg.Proper dialect

theorem arguments_wellFormed {given : List Expr}
    (htyped : argumentsWellTyped dialect.signatures given) (h : argumentsProper dialect given) :
    ∀ e ∈ given, e.WellFormed dialect := by
  induction given with
  | nil => exact List.forall_mem_nil _
  | cons e given ih => exact List.forall_mem_cons.2 ⟨⟨htyped.1, h.1⟩, ih htyped.2 h.2⟩

theorem selectors_wellFormed {sels : List Selector}
    (htyped : selectorsWellTyped dialect.signatures sels) (h : selectorsProper dialect sels) :
    ∀ sel ∈ sels, sel.WellFormed dialect := by
  induction sels with
  | nil => exact List.forall_mem_nil _
  | cons sel sels ih => exact List.forall_mem_cons.2 ⟨⟨htyped.1, h.1⟩, ih htyped.2 h.2⟩

theorem argumentTexts_eq_map (given : List Expr) : argumentTexts given = given.map Expr.text := by
  induction given with
  | nil => rfl
  | cons e given ih => rw [argumentTexts, ih, List.map_cons]

theorem selectorTexts_eq_map (sels : List Selector) :
    selectorTexts sels = sels.map Selector.text := by
  induction sels with
  | nil => rfl
  | cons sel sels ih => rw [selectorTexts, ih, List.map_cons]

theorem bareSelectors_eq_map (sels : List Selector) :
    bareSelectors sels = sels.map Selector.bare := by
  induction sels with
  | nil => rfl
  | cons sel sels ih => rw [bareSelectors, ih, List.map_cons]

/-! ### First characters -/

/-- The expression can be an operand of a comparison, as far as its form goes. -/
def Expr.IsOperand : Expr → Prop
  | .literal _ _ => True
  | .relative _ _ => True
  | .absolute _ _ => True
  | .call _ _ _ => True
  | _ => False

theorem Expr.IsComparable.isOperand {signatures : Signatures} {e : Expr}
    (h : e.IsComparable signatures) : e.IsOperand := by
  cases e with
  | literal | relative | absolute | call => trivial
  | negation | conjunction | disjunction | comparison =>
    rcases h with ⟨_, _, h⟩ | h | h <;> cases h

/-- The character that an expression starts with and by which it is told, if there is one. -/
def Expr.mark? : Expr → Option CodePoint
  | .negation _ _ => some '!'
  | .conjunction _ _ _ => some '('
  | .disjunction _ _ _ => some '('
  | .comparison _ left _ _ => left.mark?
  | .relative _ _ => some '@'
  | .absolute _ _ => some '$'
  | .literal _ _ => none
  | .call _ _ _ => none

/-- The marks of expressions, and the parenthesis that stands in the place of one. -/
def exprMarks : List CodePoint := ['!', '(', '@', '$', ')']

theorem not_mem_exprMarks_of_isDigit {c : CodePoint} (h : (Unicode.isDigit c || c == '-') = true) :
    c ∉ exprMarks := by
  intro hmem
  have hno : exprMarks.all fun c => !(Unicode.isDigit c || c == '-') := by decide
  have := List.all_eq_true.1 hno c hmem
  rw [h] at this
  cases this

theorem Literal.exists_initial (literal : Literal) (hproper : literal.Proper) :
    ∃ c more, literal.text.toList = c :: more ∧ c ∉ exprMarks := by
  match literal, hproper with
  | .null, _ => exact ⟨'n', _, rfl, by decide⟩
  | .boolean true, _ => exact ⟨'t', _, rfl, by decide⟩
  | .boolean false, _ => exact ⟨'f', _, rfl, by decide⟩
  | .number (.integer n), _ =>
    obtain ⟨c, more, heq, hc⟩ := Lexer.exists_head_of_spells (Numeral.spells_ofInteger n)
    exact ⟨c, more, heq, not_mem_exprMarks_of_isDigit hc⟩
  | .number (.double (.finite negative m)), _ =>
    obtain ⟨n, hspells, -⟩ := Layout.reads_magnitude .json negative m
    rw [← Layout.toList_double_finite] at hspells
    obtain ⟨c, more, heq, hc⟩ := Lexer.exists_head_of_spells hspells
    exact ⟨c, more, heq, not_mem_exprMarks_of_isDigit hc⟩
  | .number (.double (.infinite true)), _ => exact ⟨'-', _, rfl, by decide⟩
  | .number (.double (.infinite false)), _ => exact ⟨'I', _, rfl, by decide⟩
  | .string s, _ =>
    exact ⟨'"', s.toList.flatMap Text.jsonChar ++ [('"' : CodePoint)],
      Text.toList_ofList, by decide⟩

/-- The mark of an expression can be seen in its text. -/
theorem Expr.mark?_text : ∀ e : Expr, e.Proper dialect → ∀ rest,
    (e.text.toList ++ rest).head?.filter (· ∈ exprMarks) = e.mark?
  | .literal _ value, h, rest => by
    obtain ⟨c, more, heq, hc⟩ := value.exists_initial h
    rw [Expr.text, heq, mark?, List.cons_append, List.head?_cons,
      Option.filter_some_neg (by simpa using hc)]
  | .negation _ _, _, _ | .conjunction _ _ _, _, _ | .disjunction _ _ _, _, _
  | .relative _ _, _, _ | .absolute _ _, _, _ => by
    simp [Expr.text, mark?, exprMarks]
  | .comparison _ left _ _, h, rest => by
    simp only [Expr.text, Text.toList_append, List.append_assoc]
    exact Expr.mark?_text left h.1 _
  | .call _ name _, h, rest => by
    obtain ⟨c, more, hname, hfirst, -⟩ := h.1
    have hc : c ∉ exprMarks := by
      intro hmem
      have hno : exprMarks.all fun c => !c.isLower := by decide
      have := List.all_eq_true.1 hno c hmem
      rw [show c.isLower = true from hfirst] at this
      cases this
    simp only [Expr.text, Text.toList_append, hname, List.cons_append, List.head?_cons, mark?]
    exact Option.filter_some_neg (by simpa using hc)

theorem Expr.mark?_eq {e e' : Expr} (h : e.Proper dialect) (h' : e'.Proper dialect)
    {rest rest' : List CodePoint} (heq : e.text.toList ++ rest = e'.text.toList ++ rest') :
    e.mark? = e'.mark? := by
  rw [← e.mark?_text h rest, heq, e'.mark?_text h' rest']

theorem Expr.IsOperand.mark?_ne {e : Expr} (h : e.IsOperand) :
    e.mark? ≠ some '!' ∧ e.mark? ≠ some '(' := by
  cases e with
  | literal | relative | absolute | call => simp [mark?]
  | negation | conjunction | disjunction | comparison => cases h

/-- An expression that is neither negated nor in parentheses is an operand or compares two. -/
theorem Expr.WellFormed.operand_or_comparison {e : Expr} (h : e.WellFormed dialect)
    (hmark : e.mark? ≠ some '!' ∧ e.mark? ≠ some '(') :
    e.IsOperand ∨ ∃ token left operator right, e = .comparison token left operator right ∧
      (left.WellFormed dialect ∧ left.IsOperand) ∧ right.WellFormed dialect ∧ right.IsOperand := by
  cases e with
  | literal | relative | absolute | call => exact .inl trivial
  | negation | conjunction | disjunction => simp [mark?] at hmark
  | comparison token left operator right =>
    obtain ⟨⟨hleft, hright, hcompared, hcompared'⟩, hproper, hproper'⟩ := h
    exact .inr ⟨token, left, operator, right, rfl, ⟨⟨hleft, hproper⟩, hcompared.isOperand⟩,
      ⟨hright, hproper'⟩, hcompared'.isOperand⟩

theorem Expr.WellFormed.negation_of_mark? {e : Expr} (h : e.WellFormed dialect)
    (hmark : e.mark? = some '!') :
    ∃ token operand, e = .negation token operand ∧ operand.WellFormed dialect := by
  cases e with
  | negation token operand => exact ⟨token, operand, rfl, h.typed, h.proper.1⟩
  | comparison => exact absurd hmark h.typed.2.2.1.isOperand.mark?_ne.1
  | literal | conjunction | disjunction | relative | absolute | call => simp [mark?] at hmark

theorem Expr.WellFormed.connective_of_mark? {e : Expr} (h : e.WellFormed dialect)
    (hmark : e.mark? = some '(') :
    ∃ token left right, (e = .conjunction token left right ∨ e = .disjunction token left right) ∧
      left.WellFormed dialect ∧ right.WellFormed dialect := by
  cases e with
  | conjunction token left right =>
    exact ⟨token, left, right, .inl rfl, ⟨h.typed.1, h.proper.1⟩, h.typed.2, h.proper.2.1⟩
  | disjunction token left right =>
    exact ⟨token, left, right, .inr rfl, ⟨h.typed.1, h.proper.1⟩, h.typed.2, h.proper.2.1⟩
  | comparison => exact absurd hmark h.typed.2.2.1.isOperand.mark?_ne.2
  | literal | negation | relative | absolute | call => simp [mark?] at hmark

/-! ### Expressions -/

/-- What can stand after a whole expression: the end of an operand, and no comparison. -/
def EndsExpr (rest : List CodePoint) : Prop :=
  Stops rest ∧ ∀ (operator : Comparison) (more : List CodePoint),
    rest ≠ (" " : Text).toList ++ (operator.symbol.toList ++ ((" " : Text).toList ++ more))

/-- The expression can be told as an operand, if it is one, and as a whole. -/
structure Expr.IsLegible (dialect : Dialect) (e : Expr) : Prop where
  operand : e.IsOperand →
    Legible Expr.text (Expr.bare ∘ Expr.joined)
      (fun e' => e'.WellFormed dialect ∧ e'.IsOperand) Stops e
  whole : Legible Expr.text (Expr.bare ∘ Expr.joined) (Expr.WellFormed dialect) EndsExpr e

theorem endsExpr_of_followsItem {rest : List CodePoint}
    (h : FollowsItem ')' rest ∨ FollowsItem ']' rest) : EndsExpr rest := by
  rcases h with ⟨c, more, rfl, rfl | rfl⟩ | ⟨c, more, rfl, rfl | rfl⟩ <;>
    exact ⟨by simp [Stops], by simp⟩

theorem endsExpr_connective {connective : Text}
    (h : connective = " && " ∨ connective = " || ") (rest : List CodePoint) :
    EndsExpr (connective.toList ++ rest) := by
  rcases h with rfl | rfl <;>
    exact ⟨by simp [Stops], fun operator more => by cases operator <;> simp [Comparison.symbol]⟩

theorem stops_comparison (operator : Comparison) (rest : List CodePoint) :
    Stops ((" " : Text).toList ++ (operator.symbol.toList ++ rest)) := by
  simp [Stops]

theorem Comparison.symbol_legible {operator operator' : Comparison} {more more' : List CodePoint}
    (heq : (" " : Text).toList ++ (operator.symbol.toList ++ ((" " : Text).toList ++ more)) =
      (" " : Text).toList ++ (operator'.symbol.toList ++ ((" " : Text).toList ++ more'))) :
    operator = operator' ∧ more = more' := by
  cases operator <;> cases operator' <;> simp_all [Comparison.symbol]

/-- What can be told as an operand can be told as a whole. -/
theorem Expr.IsLegible.of_operand {e : Expr} (hproper : e.Proper dialect) (he : e.IsOperand)
    (h : Legible Expr.text (Expr.bare ∘ Expr.joined)
      (fun e' => e'.WellFormed dialect ∧ e'.IsOperand) Stops e) :
    e.IsLegible dialect where
  operand _ := h
  whole := by
    intro e' rest rest' hvalid hrest hrest' heq
    have hmark := Expr.mark?_eq hproper hvalid.proper heq
    rcases hvalid.operand_or_comparison (hmark ▸ he.mark?_ne) with
      he' | ⟨_, left, operator, right, rfl, hleft, -⟩
    · exact h ⟨hvalid, he'⟩ hrest.1 hrest'.1 heq
    · -- The operand would be followed by an operator.
      simp only [Expr.text, Text.toList_append, List.append_assoc] at heq
      obtain ⟨-, hoperator⟩ := h hleft hrest.1 (stops_comparison operator _) heq
      exact absurd hoperator (hrest.2 _ _)

/-- A comparison can be told if its operands can. -/
theorem Expr.IsLegible.comparison {token : Token} {left right : Expr} {operator : Comparison}
    (hwell : (Expr.comparison token left operator right).WellFormed dialect)
    (hleft : left.IsLegible dialect) (hright : right.IsLegible dialect) :
    (Expr.comparison token left operator right).IsLegible dialect where
  operand h := h.elim
  whole := by
    intro e' rest rest' hvalid hrest hrest' heq
    obtain ⟨-, -, hcompared, hcompared'⟩ := hwell.typed
    have hmark := Expr.mark?_eq hwell.proper hvalid.proper heq
    rcases hvalid.operand_or_comparison (hmark ▸ hcompared.isOperand.mark?_ne) with
      he' | ⟨_, left', operator', right', rfl, hleft', hright'⟩
    · simp only [Expr.text, Text.toList_append, List.append_assoc] at heq
      obtain ⟨-, hoperator⟩ := hleft.operand hcompared.isOperand ⟨hvalid, he'⟩
        (stops_comparison operator _) hrest'.1 heq
      exact absurd hoperator.symm (hrest'.2 _ _)
    · simp only [Expr.text, Text.toList_append, List.append_assoc] at heq
      obtain ⟨hbare, hoperator⟩ := hleft.operand hcompared.isOperand hleft'
        (stops_comparison operator _) (stops_comparison operator' _) heq
      obtain ⟨rfl, hmore⟩ := Comparison.symbol_legible hoperator
      obtain ⟨hbare', hsame⟩ :=
        hright.operand hcompared'.isOperand hright' hrest.1 hrest'.1 hmore
      exact ⟨congrArg₂ (Expr.comparison .blank · operator ·) hbare hbare', hsame⟩

theorem Expr.IsLegible.negation {token : Token} {operand : Expr}
    (hproper : (Expr.negation token operand).Proper dialect) (h : operand.IsLegible dialect) :
    (Expr.negation token operand).IsLegible dialect where
  operand h := h.elim
  whole := by
    intro e' rest rest' hvalid hrest hrest' heq
    obtain ⟨_, operand', rfl, hoperand⟩ :=
      hvalid.negation_of_mark? (Expr.mark?_eq hproper hvalid.proper heq).symm
    simp only [Expr.text, Text.toList_append, List.append_assoc,
      List.append_cancel_left_eq] at heq
    obtain ⟨hbare, hsame⟩ := h.whole hoperand hrest hrest' heq
    exact ⟨congrArg (Expr.negation .blank) hbare, hsame⟩

/-- Both sides of a connective and the connective can be told. -/
theorem connective_legible {left right left' right' : Expr} (hleft : left.IsLegible dialect)
    (hright : right.IsLegible dialect) (hleft' : left'.WellFormed dialect)
    (hright' : right'.WellFormed dialect) {connective connective' : Text}
    (h : connective = " && " ∨ connective = " || ")
    (h' : connective' = " && " ∨ connective' = " || ") {rest rest' : List CodePoint}
    (heq : left.text.toList ++
        (connective.toList ++ (right.text.toList ++ ((")" : Text).toList ++ rest))) =
      left'.text.toList ++
        (connective'.toList ++ (right'.text.toList ++ ((")" : Text).toList ++ rest')))) :
    connective = connective' ∧ left.joined.bare = left'.joined.bare ∧
      right.joined.bare = right'.joined.bare ∧ rest = rest' := by
  have hends (rest : List CodePoint) : EndsExpr ((")" : Text).toList ++ rest) :=
    endsExpr_of_followsItem (.inl ⟨')', rest, rfl, .inr rfl⟩)
  obtain ⟨hbare, hconnective⟩ :=
    hleft.whole hleft' (endsExpr_connective h _) (endsExpr_connective h' _) heq
  obtain ⟨rfl, hmore⟩ : connective = connective' ∧
      right.text.toList ++ ((")" : Text).toList ++ rest) =
        right'.text.toList ++ ((")" : Text).toList ++ rest') := by
    rcases h with rfl | rfl <;> rcases h' with rfl | rfl <;> simp_all
  obtain ⟨hbare', hclosed⟩ := hright.whole hright' (hends rest) (hends rest') hmore
  exact ⟨rfl, hbare, hbare', List.append_cancel_left hclosed⟩

theorem Expr.IsLegible.connective {make : Token → Expr → Expr → Expr}
    (hmake : make = .conjunction ∨ make = .disjunction) {token : Token} {left right : Expr}
    (hproper : (make token left right).Proper dialect) (hleft : left.IsLegible dialect)
    (hright : right.IsLegible dialect) : (make token left right).IsLegible dialect where
  operand h := by rcases hmake with rfl | rfl <;> exact h.elim
  whole := by
    intro e' rest rest' hvalid _ _ heq
    have hmark : (make token left right).mark? = some '(' := by
      rcases hmake with rfl | rfl <;> rfl
    obtain ⟨_, left', right', hform, hleft', hright'⟩ :=
      hvalid.connective_of_mark? ((Expr.mark?_eq hproper hvalid.proper heq).symm.trans hmark)
    rcases hmake with rfl | rfl <;> rcases hform with rfl | rfl
    all_goals
      simp only [Expr.text, Text.toList_append, List.append_assoc,
        List.append_cancel_left_eq] at heq
      obtain ⟨hconnective, hbare, hbare', hsame⟩ :=
        connective_legible hleft hright hleft' hright' (by simp) (by simp) heq
    · exact ⟨congrArg₂ (Expr.conjunction .blank) hbare hbare', hsame⟩
    · exact absurd hconnective (by decide)
    · exact absurd hconnective (by decide)
    · exact ⟨congrArg₂ (Expr.disjunction .blank) hbare hbare', hsame⟩

/-! ### Calls and queries -/

theorem Expr.mark?_ne_closeParen {e : Expr} (h : e.WellFormed dialect) : e.mark? ≠ some ')' := by
  cases e with
  | comparison _ left =>
    have hleft := h.typed.2.2.1.isOperand
    rw [mark?]
    cases left <;> simp_all [mark?, IsOperand]
  | _ => simp [mark?]

theorem arguments_legible {given given' : List Expr} (h : ∀ e ∈ given, e.WellFormed dialect)
    (hlegible : ∀ e ∈ given, e.IsLegible dialect) (h' : ∀ e ∈ given', e.WellFormed dialect)
    {rest rest' : List CodePoint}
    (heq : (Text.intercalate ", " (argumentTexts given)).toList ++ (')' : CodePoint) :: rest =
      (Text.intercalate ", " (argumentTexts given')).toList ++ (')' : CodePoint) :: rest') :
    bareArguments (joinedArguments given) = bareArguments (joinedArguments given') ∧
      rest = rest' := by
  have hne (e : Expr) (more : List Expr) (he : e.WellFormed dialect) (rest rest' : List CodePoint) :
      (')' : CodePoint) :: rest ≠ (Text.intercalate ", " (argumentTexts (e :: more))).toList ++
        rest' := by
    intro heq
    rw [argumentTexts_eq_map, List.map_cons, toList_intercalate_cons, List.append_assoc] at heq
    have hmark := e.mark?_text he.proper
      ((more.map Expr.text).flatMap ((", " : Text).toList ++ ·.toList) ++ rest')
    rw [← heq] at hmark
    exact e.mark?_ne_closeParen he hmark.symm
  match given, given' with
  | [], [] => exact ⟨rfl, (List.cons.inj heq).2⟩
  | [], e :: more => exact absurd heq (hne e more (h' e List.mem_cons_self) _ _)
  | e :: more, [] => exact absurd heq.symm (hne e more (h e List.mem_cons_self) _ _)
  | e :: more, e' :: more' =>
    rw [argumentTexts_eq_map, argumentTexts_eq_map] at heq
    simp only [bareArguments_eq_map, joinedArguments_eq_map, List.map_map]
    exact legible_items (by decide) (by simp) (by simp) (fun e he =>
      (hlegible e he).whole.mono fun _ hrest => endsExpr_of_followsItem (.inl hrest)) h' heq

theorem Literal.function?_text (literal : Literal) (hproper : literal.Proper)
    {rest : List CodePoint}
    (hrest : Stops rest) : Lexer.function? (literal.text.toList ++ rest) = none := by
  have hother {c : CodePoint} (hc : c.isLower = false) (more : List CodePoint) :
      Lexer.function? (c :: more) = none := by
    simp [Lexer.function?, Lexer.isFunctionFirst, hc]
  have hword (c : CodePoint) (more : List CodePoint)
      (h : ∀ d ∈ more, Lexer.isFunctionChar d = true) :
      Lexer.function? (c :: more ++ rest) = none := Lexer.function?_eq_none h hrest
  have hspelled {n : Numeral} {cs : List CodePoint} (h : n.Spells cs) :
      Lexer.function? (cs ++ rest) = none := by
    obtain ⟨c, more, rfl, hc⟩ := Lexer.exists_head_of_spells h
    refine hother (Bool.eq_false_iff.2 fun hlower => ?_) _
    rcases Bool.or_eq_true_iff.1 hc with hdigit | hminus
    · rw [Lexer.not_isDigit_of_isLower hlower] at hdigit
      cases hdigit
    · exact Lexer.ne_of_isLower hlower (by decide) (eq_of_beq hminus)
  cases literal with
  | null => exact hword 'n' ['u', 'l', 'l'] (by simp; decide)
  | boolean value =>
    cases value with
    | true => exact hword 't' ['r', 'u', 'e'] (by simp; decide)
    | false => exact hword 'f' ['a', 'l', 's', 'e'] (by simp; decide)
  | number number =>
    cases number with
    | integer n => exact hspelled (Numeral.spells_ofInteger n)
    | double d =>
      cases d with
      | finite negative m =>
        obtain ⟨n, hspells, -⟩ := Layout.reads_magnitude .json negative m
        rw [← Layout.toList_double_finite] at hspells
        exact hspelled hspells
      | infinite negative =>
        cases negative
        all_goals exact hother (by decide) _
      | nan => exact absurd rfl hproper
  | string s =>
    have htext : (Literal.string s).text.toList =
      ('"' : CodePoint) :: s.toList.flatMap Text.jsonChar ++ [('"' : CodePoint)] :=
      Text.toList_ofList
    rw [htext]
    exact hother (by decide) _

theorem Expr.IsLegible.literal {token : Token} {value : Literal} (hproper : value.Proper) :
    (Expr.literal token value).IsLegible dialect := by
  refine .of_operand hproper trivial ?_
  rintro e' rest rest' ⟨hvalid, he'⟩ hrest hrest' heq
  have hmark := Expr.mark?_eq (e := .literal token value) hproper hvalid.proper heq
  cases e' with
  | literal _ value' =>
    obtain ⟨hvalue, hsame⟩ := value.legible hproper hvalid.proper hrest hrest' heq
    exact ⟨congrArg (Expr.literal .blank) hvalue, hsame⟩
  | call _ name =>
    have hnone := value.function?_text hproper hrest
    simp only [Expr.text, Text.toList_append, List.append_assoc] at heq
    rw [heq] at hnone
    cases (Lexer.function?_of_isFunctionName hvalid.proper.1 _).symm.trans hnone
  | relative | absolute => simp [mark?] at hmark
  | negation | conjunction | disjunction | comparison => cases he'

theorem Expr.IsLegible.call {token : Token} {name : Text} {given : List Expr}
    (hwell : (Expr.call token name given).WellFormed dialect)
    (h : ∀ e ∈ given, e.IsLegible dialect) : (Expr.call token name given).IsLegible dialect := by
  refine .of_operand hwell.proper trivial ?_
  rintro e' rest rest' ⟨hvalid, he'⟩ hrest hrest' heq
  have hmark := Expr.mark?_eq hwell.proper hvalid.proper heq
  cases e' with
  | literal _ value =>
    have hnone := value.function?_text hvalid.proper hrest'
    simp only [Expr.text, Text.toList_append, List.append_assoc] at heq
    rw [← heq] at hnone
    cases (Lexer.function?_of_isFunctionName hwell.proper.1 _).symm.trans hnone
  | call _ name' given' =>
    simp only [Expr.text, Text.toList_append, List.append_assoc] at heq
    have hfunction := Lexer.function?_of_isFunctionName hwell.proper.1
      ((Text.intercalate ", " (argumentTexts given)).toList ++ ((")" : Text).toList ++ rest))
    have hfunction' := Lexer.function?_of_isFunctionName hvalid.proper.1
      ((Text.intercalate ", " (argumentTexts given')).toList ++ ((")" : Text).toList ++ rest'))
    have hlexemes := hfunction.symm.trans ((congrArg Lexer.function? heq).trans hfunction')
    obtain ⟨hname, hmore⟩ :=
      List.append_inj heq (Lexer.Lexeme.mk.inj (Option.some.inj hlexemes)).2
    obtain ⟨hgiven, hsame⟩ := arguments_legible
      (arguments_wellFormed hwell.typed.1 hwell.proper.2) h
      (arguments_wellFormed hvalid.typed.1 hvalid.proper.2) (List.cons.inj hmore).2
    exact ⟨congrArg₂ (Expr.call .blank) (Text.toList_injective hname) hgiven, hsame⟩
  | relative | absolute => simp [mark?] at hmark
  | negation | conjunction | disjunction | comparison => cases he'

/-- What can stand after the segments of a query: neither a bracket nor a dot. -/
def EndsQuery (rest : List CodePoint) : Prop := ∀ c ∈ rest.head?, c ≠ '[' ∧ c ≠ '.'

theorem Lexer.Stops.endsQuery {rest : List CodePoint} (h : Stops rest) : EndsQuery rest := by
  intro c hc
  have hmem := h c hc
  constructor <;> rintro rfl <;> simp at hmem

/-- A query in an expression can be told if its segments can; its root is its mark. -/
theorem Expr.IsLegible.query {make : Token → List Segment → Expr}
    (hmake : make = .relative ∨ make = .absolute) {token : Token} {segs : List Segment}
    (hproper : (make token segs).Proper dialect)
    (h : Legible segmentsText (bareSegments ∘ joinedSegments)
      (Query.WellFormed dialect) EndsQuery segs) :
    (make token segs).IsLegible dialect := by
  have hoperand : (make token segs).IsOperand := by rcases hmake with rfl | rfl <;> trivial
  refine .of_operand hproper hoperand ?_
  rintro e' rest rest' ⟨hvalid, he'⟩ hrest hrest' heq
  have hmark := Expr.mark?_eq hproper hvalid.proper heq
  obtain ⟨_, segs', rfl⟩ : ∃ token' segs', e' = make token' segs' := by
    rcases hmake with rfl | rfl <;> cases e' <;> simp_all [mark?, IsOperand]
  rcases hmake with rfl | rfl
  all_goals
    simp only [Expr.text, Text.toList_append, List.append_assoc,
      List.append_cancel_left_eq] at heq
    obtain ⟨hsegs, hsame⟩ :=
      h ⟨hvalid.typed, hvalid.proper⟩ hrest.endsQuery hrest'.endsQuery heq
  · exact ⟨congrArg (Expr.relative .blank) hsegs, hsame⟩
  · exact ⟨congrArg (Expr.absolute .blank) hsegs, hsame⟩

/-! ### Selectors and segments -/

/-- The character that a selector starts with and by which it is told, if there is one. -/
def Selector.mark? : Selector → Option CodePoint
  | .name _ _ => some '\''
  | .wildcard _ => some '*'
  | .filter _ _ => some '?'
  | .index _ _ => none
  | .slice _ _ _ _ => none

def selectorMarks : List CodePoint := ['\'', '*', '?']

theorem Selector.mark?_text (sel : Selector) (rest : List CodePoint) :
    (sel.text.toList ++ rest).head?.filter (· ∈ selectorMarks) = sel.mark? := by
  have hinteger (i : Int) (rest : List CodePoint) :
      ((Text.ofInt i).toList ++ rest).head?.filter (· ∈ selectorMarks) = none := by
    obtain ⟨c, more, htext, hc⟩ := Lexer.exists_head_of_spells (Numeral.spells_ofInteger i)
    have hmarks : selectorMarks.all fun c => !(Unicode.isDigit c || c == '-') := by decide
    have hmem : c ∉ selectorMarks := by
      intro hmem
      have hno := List.all_eq_true.1 hmarks c hmem
      rw [hc] at hno
      cases hno
    rw [htext, List.cons_append, List.head?_cons, Option.filter_some_neg (by simpa using hmem)]
  cases sel with
  | name _ name =>
    have htext : (Text.normalizedName name).toList =
        ('\'' : CodePoint) :: name.toList.flatMap Text.nameChar ++ [('\'' : CodePoint)] :=
      Text.toList_ofList
    rw [Selector.text, htext]
    rfl
  | wildcard | filter => simp [Selector.text, mark?, selectorMarks]
  | index _ i => exact hinteger i rest
  | slice _ start? stop? step? =>
    simp only [Selector.text, Text.toList_append, List.append_assoc]
    cases start? with
    | none => rfl
    | some i => exact hinteger i _

theorem Selector.mark?_eq {sel sel' : Selector} {rest rest' : List CodePoint}
    (heq : sel.text.toList ++ rest = sel'.text.toList ++ rest') : sel.mark? = sel'.mark? := by
  rw [← sel.mark?_text rest, heq, sel'.mark?_text]

/-- The selector can be told before a comma and before the closing bracket. -/
def Selector.IsLegible (dialect : Dialect) (sel : Selector) : Prop :=
  Legible Selector.text (Selector.bare ∘ Selector.joined) (Selector.WellFormed dialect)
    (FollowsItem ']') sel

theorem stops_of_followsItem {rest : List CodePoint} (h : FollowsItem ']' rest) : Stops rest :=
  (endsExpr_of_followsItem (.inr h)).1

/-- An index is not followed by a colon. -/
theorem index_ne_slice {i : Int} {start? stop? step? : Option Int} {rest : List CodePoint}
    (hrest : FollowsItem ']' rest) (token token' : Token) (rest' : List CodePoint) :
    (Selector.index token i).text.toList ++ rest ≠
      (Selector.slice token' start? stop? step?).text.toList ++ rest' := by
  intro heq
  simp only [Selector.text, Text.toList_append, List.append_assoc] at heq
  have hcolon (more : List CodePoint) : Stops ((":" : Text).toList ++ more) := by simp [Stops]
  have hbound : (((some i).map Text.ofInt).getD "").toList ++ rest =
      ((start?.map Text.ofInt).getD "").toList ++ _ := heq
  obtain ⟨-, hsame⟩ :=
    legible_bound (some i) trivial (stops_of_followsItem hrest) (hcolon _) hbound
  obtain ⟨c, more, rfl, rfl | rfl⟩ := hrest <;> cases hsame

theorem Selector.IsLegible.name (token : Token) (name : Text) :
    (Selector.name token name).IsLegible dialect := by
  intro sel' rest rest' _ _ _ heq
  have hmark := Selector.mark?_eq heq
  cases sel' with
  | name _ name' =>
    obtain ⟨hname, hsame⟩ := legible_normalizedName name trivial trivial trivial heq
    exact ⟨congrArg (Selector.name .blank) hname, hsame⟩
  | index | wildcard | slice | filter => simp [mark?] at hmark

theorem Selector.IsLegible.wildcard (token : Token) :
    (Selector.wildcard token).IsLegible dialect := by
  intro sel' rest rest' _ _ _ heq
  have hmark := Selector.mark?_eq heq
  cases sel' with
  | wildcard => exact ⟨rfl, List.append_cancel_left heq⟩
  | name | index | slice | filter => simp [mark?] at hmark

theorem Selector.IsLegible.index (token : Token) (i : Int) :
    (Selector.index token i).IsLegible dialect := by
  intro sel' rest rest' _ hrest hrest' heq
  have hmark := Selector.mark?_eq heq
  cases sel' with
  | index _ j =>
    obtain ⟨hindex, hsame⟩ := legible_integer i trivial (stops_of_followsItem hrest).endsNumber
      (stops_of_followsItem hrest').endsNumber heq
    exact ⟨congrArg (Selector.index .blank) hindex, hsame⟩
  | slice => exact absurd heq (index_ne_slice hrest _ _ _)
  | name | wildcard | filter => simp [mark?] at hmark

theorem Selector.IsLegible.slice (token : Token) (start? stop? step? : Option Int) :
    (Selector.slice token start? stop? step?).IsLegible dialect := by
  intro sel' rest rest' _ hrest hrest' heq
  have hmark := Selector.mark?_eq heq
  cases sel' with
  | slice _ start'? stop'? step'? =>
    have hcolon (more : List CodePoint) : Stops ((":" : Text).toList ++ more) := by simp [Stops]
    simp only [Selector.text, Text.toList_append, List.append_assoc] at heq
    obtain ⟨hstart, hmore⟩ := legible_bound start? trivial (hcolon _) (hcolon _) heq
    obtain ⟨hstop, hmore⟩ :=
      legible_bound stop? trivial (hcolon _) (hcolon _) (List.append_cancel_left hmore)
    obtain ⟨hstep, hsame⟩ := legible_integer (step?.getD 1) trivial
      (stops_of_followsItem hrest).endsNumber (stops_of_followsItem hrest').endsNumber
      (List.append_cancel_left hmore)
    rw [id, id] at hstart hstop hstep
    subst hstart hstop
    exact ⟨congrArg (Selector.slice .blank start? stop? ∘ some) hstep, hsame⟩
  | index => exact absurd heq.symm (index_ne_slice hrest' _ _ _)
  | name | wildcard | filter => simp [mark?] at hmark

theorem Selector.IsLegible.filter {token : Token} {e : Expr} (h : e.IsLegible dialect) :
    (Selector.filter token e).IsLegible dialect := by
  intro sel' rest rest' hvalid hrest hrest' heq
  have hmark := Selector.mark?_eq heq
  cases sel' with
  | filter _ e' =>
    simp only [Selector.text, Text.toList_append, List.append_assoc,
      List.append_cancel_left_eq] at heq
    obtain ⟨hbare, hsame⟩ := h.whole ⟨hvalid.typed, hvalid.proper.1⟩
      (endsExpr_of_followsItem (.inr hrest)) (endsExpr_of_followsItem (.inr hrest')) heq
    exact ⟨congrArg (Selector.filter .blank) hbare, hsame⟩
  | name | index | wildcard | slice => simp [mark?] at hmark

theorem bracketed_legible {sels sels' : List Selector} (hne : sels ≠ []) (hne' : sels' ≠ [])
    (h : ∀ sel ∈ sels, sel.IsLegible dialect)
    (h' : ∀ sel ∈ sels', sel.WellFormed dialect) {rest rest' : List CodePoint}
    (heq : (Text.intercalate ", " (selectorTexts sels)).toList ++ (']' : CodePoint) :: rest =
      (Text.intercalate ", " (selectorTexts sels')).toList ++ (']' : CodePoint) :: rest') :
    bareSelectors (joinedSelectors sels) = bareSelectors (joinedSelectors sels') ∧
      rest = rest' := by
  rw [selectorTexts_eq_map, selectorTexts_eq_map] at heq
  simp only [bareSelectors_eq_map, joinedSelectors_eq_map, List.map_map]
  exact legible_items (by decide) hne hne' h h' heq

theorem Segment.legible_of_selectors {seg : Segment} (hwell : seg.WellFormed dialect)
    (h : ∀ sel ∈ seg.selectors, sel.IsLegible dialect) :
    Legible Segment.text (Segment.bare ∘ Segment.joined) (Segment.WellFormed dialect)
      (fun _ => True) seg := by
  intro seg' rest rest' hvalid _ _ heq
  match seg, seg' with
  | .child _ sels, .child _ sels' =>
    simp only [Segment.text, Text.toList_append, List.append_assoc,
      List.append_cancel_left_eq] at heq
    obtain ⟨hbare, hsame⟩ := bracketed_legible hwell.proper.1 hvalid.proper.1 h
      (selectors_wellFormed hvalid.typed hvalid.proper.2) heq
    exact ⟨congrArg (Segment.child .blank) hbare, hsame⟩
  | .descendant _ sels, .descendant _ sels' =>
    simp only [Segment.text, Text.toList_append, List.append_assoc,
      List.append_cancel_left_eq] at heq
    obtain ⟨hbare, hsame⟩ := bracketed_legible hwell.proper.1 hvalid.proper.1 h
      (selectors_wellFormed hvalid.typed hvalid.proper.2) heq
    exact ⟨congrArg (Segment.descendant .blank) hbare, hsame⟩
  | .child _ _, .descendant _ _ | .descendant _ _, .child _ _ =>
    simp [Segment.text] at heq

theorem Segment.exists_initial (seg : Segment) :
    ∃ c more, seg.text.toList = c :: more ∧ (c = '[' ∨ c = '.') := by
  cases seg with
  | child | descendant => simp [Segment.text]

theorem EndsQuery.ne_segmentsText {rest : List CodePoint} (h : EndsQuery rest) (seg : Segment)
    (segs : List Segment) (rest' : List CodePoint) :
    rest ≠ (segmentsText (seg :: segs)).toList ++ rest' := by
  rintro rfl
  obtain ⟨c, more, htext, hc⟩ := seg.exists_initial
  rw [segmentsText, Text.toList_append, htext] at h
  have hno := h c rfl
  rcases hc with rfl | rfl
  · exact hno.1 rfl
  · exact hno.2 rfl

/-! ### All of a query -/

mutual

theorem Expr.isLegible : ∀ e : Expr, e.WellFormed dialect → e.IsLegible dialect
  | .literal _ _, h => .literal h.proper
  | .negation _ operand, h => .negation h.proper (Expr.isLegible operand ⟨h.typed, h.proper.1⟩)
  | .conjunction _ left right, h =>
    .connective (.inl rfl) h.proper (Expr.isLegible left ⟨h.typed.1, h.proper.1⟩)
      (Expr.isLegible right ⟨h.typed.2, h.proper.2.1⟩)
  | .disjunction _ left right, h =>
    .connective (.inr rfl) h.proper (Expr.isLegible left ⟨h.typed.1, h.proper.1⟩)
      (Expr.isLegible right ⟨h.typed.2, h.proper.2.1⟩)
  | .comparison _ left _ right, h =>
    .comparison h (Expr.isLegible left ⟨h.typed.1, h.proper.1⟩)
      (Expr.isLegible right ⟨h.typed.2.1, h.proper.2⟩)
  | .relative _ segs, h => .query (.inl rfl) h.proper (segments_legible segs ⟨h.typed, h.proper⟩)
  | .absolute _ segs, h => .query (.inr rfl) h.proper (segments_legible segs ⟨h.typed, h.proper⟩)
  | .call _ _ given, h => .call h (arguments_areLegible given h.typed.1 h.proper.2)

theorem arguments_areLegible : ∀ given : List Expr,
    argumentsWellTyped dialect.signatures given → argumentsProper dialect given →
      ∀ e ∈ given, e.IsLegible dialect
  | [], _, _ => List.forall_mem_nil _
  | e :: given, htyped, hproper => List.forall_mem_cons.2
    ⟨Expr.isLegible e ⟨htyped.1, hproper.1⟩, arguments_areLegible given htyped.2 hproper.2⟩

theorem Selector.isLegible : ∀ sel : Selector, sel.WellFormed dialect → sel.IsLegible dialect
  | .name token name, _ => .name token name
  | .index token i, _ => .index token i
  | .wildcard token, _ => .wildcard token
  | .slice token start? stop? step?, _ => .slice token start? stop? step?
  | .filter _ e, h => .filter (Expr.isLegible e ⟨h.typed, h.proper.1⟩)

theorem selectors_areLegible : ∀ sels : List Selector,
    selectorsWellTyped dialect.signatures sels → selectorsProper dialect sels →
      ∀ sel ∈ sels, sel.IsLegible dialect
  | [], _, _ => List.forall_mem_nil _
  | sel :: sels, htyped, hproper => List.forall_mem_cons.2
    ⟨Selector.isLegible sel ⟨htyped.1, hproper.1⟩, selectors_areLegible sels htyped.2 hproper.2⟩

theorem Segment.legible : ∀ seg : Segment, seg.WellFormed dialect →
    Legible Segment.text (Segment.bare ∘ Segment.joined) (Segment.WellFormed dialect)
      (fun _ => True) seg
  | .child _ sels, h =>
    Segment.legible_of_selectors h (selectors_areLegible sels h.typed h.proper.2)
  | .descendant _ sels, h =>
    Segment.legible_of_selectors h (selectors_areLegible sels h.typed h.proper.2)

theorem segments_legible : ∀ segs : List Segment, Query.WellFormed dialect segs →
    Legible segmentsText (bareSegments ∘ joinedSegments) (Query.WellFormed dialect) EndsQuery segs
  | [], _ => by
    intro segs' rest rest' hvalid hrest _ heq
    cases segs' with
    | nil => exact ⟨rfl, heq⟩
    | cons seg' segs' => exact absurd heq (hrest.ne_segmentsText seg' segs' rest')
  | seg :: segs, h => by
    intro segs' rest rest' hvalid hrest hrest' heq
    cases segs' with
    | nil => exact absurd heq.symm (hrest'.ne_segmentsText seg segs rest)
    | cons seg' segs' =>
      simp only [segmentsText, Text.toList_append, List.append_assoc] at heq
      obtain ⟨hbare, hmore⟩ := Segment.legible seg ⟨h.typed.1, h.proper.1⟩
        ⟨hvalid.typed.1, hvalid.proper.1⟩ trivial trivial heq
      obtain ⟨hbares, hsame⟩ := segments_legible segs ⟨h.typed.2, h.proper.2⟩
        ⟨hvalid.typed.2, hvalid.proper.2⟩ hrest hrest' hmore
      exact ⟨congrArg₂ List.cons hbare hbares, hsame⟩

end

/-- Well-formed queries of one text are the same but for tokens, implied steps and the pairs of
surrogates that one of them may hold where the other has a character. -/
theorem Query.WellFormed.bare_joined_eq {p q : Query} (hp : p.WellFormed dialect)
    (hq : q.WellFormed dialect) (h : p.text = q.text) :
    bareSegments (joinedSegments p) = bareSegments (joinedSegments q) := by
  have hends : EndsQuery [] := by simp [EndsQuery]
  have htext : (segmentsText p).toList ++ [] = (segmentsText q).toList ++ [] := by
    rw [List.append_nil, List.append_nil]
    have hlist := congrArg Text.toList h
    rw [Query.text, Query.text, Text.toList_append, Text.toList_append] at hlist
    exact List.append_cancel_left hlist
  exact (segments_legible p hp hq hends hends htext).1

end JsonPath
