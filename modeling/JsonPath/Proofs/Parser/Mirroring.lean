import JsonPath.Proofs.Parser.Mirror

/-!
# The parser mirrors itself

On streams whose tokens stand for each other each part of the parser takes the same steps, up to the
queries of whole token sequences.
-/

namespace JsonPath

namespace Parser

namespace Mirror

variable {dialect dialect' : Dialect} {m : Mirror dialect dialect'}

/-! ### The parts of the parser -/

variable {s s' : Stream}

/-- Sets the first of the two steps aside. -/
theorem steps_of_eq {α β : Type} {related : α → β → Prop} {x : Except CompileError α}
    {y : Except CompileError β} (h : ∀ x', x' = x → m.Steps related x' y) : m.Steps related x y :=
  h x rfl

theorem reads_item {bound bound' : Nat} {α β : Type} {related : α → β → Prop} {a : α} {b : β}
    {hs : s.size < bound} {hs' : s'.size < bound'} (hab : related a b)
    (h : s.Mirrors m.token s') : m.Reads related (.ok ⟨a, s, hs⟩) (.ok ⟨b, s', hs'⟩) := .ok ⟨hab, h⟩

theorem reads_optionalIndex (hs : s.Mirrors m.token s') :
    m.Reads (· = ·) (optionalIndex dialect s) (optionalIndex dialect' s') := by
  have hkind := m.kind_eq hs.peek
  unfold optionalIndex
  by_cases h : s.peek.kind = .integer
  · rw [dif_pos h, dif_pos (hkind ▸ h)]
    refine (m.index hs.peek h).bind ?_
    rintro n _ rfl
    exact reads_item rfl hs.advance
  · rw [dif_neg h, dif_neg (hkind ▸ h)]
    exact reads_item rfl hs

theorem reads_sliceRest {t u : Token} (ht : m.token t u) {start? : Option Int}
    (hs : s.Mirrors m.token s') :
    m.Reads (Selector.Mirrors m.token) (sliceRest dialect t start? s)
      (sliceRest dialect' u start? s') := by
  unfold sliceRest
  refine (reads_optionalIndex hs).bind ?_
  rintro ⟨stop?, s₁, _⟩ ⟨_, s₁', _⟩ ⟨rfl, hs₁⟩
  have hkind := m.kind_eq hs₁.peek
  by_cases h : s₁.peek.kind = .colon
  · simp only [dif_pos h, dif_pos (hkind ▸ h)]
    refine (reads_optionalIndex hs₁.advance).bind ?_
    rintro ⟨step?, s₂, _⟩ ⟨_, s₂', _⟩ ⟨rfl, hs₂⟩
    exact reads_item (.slice ht) hs₂
  · simp only [dif_neg h, dif_neg (hkind ▸ h)]
    exact reads_item (.slice ht) hs₁

theorem steps_mismatch {α β : Type} {related : α → β → Prop} (hs : s.Mirrors m.token s')
    (kind : TokenKind) :
    m.Steps related (.error (.query (s.mismatch kind))) (.error (.query (s'.mismatch kind))) := by
  unfold Stream.mismatch
  rw [m.kind_eq hs.peek, m.text_eq hs.peek]
  exact steps_fault hs.peek _

theorem steps_expectNot (hs : s.Mirrors m.token s') (kind : TokenKind) (fault : QueryFault) :
    m.Steps (fun _ _ => True) (require (s.expectNot kind fault))
      (require (s'.expectNot kind fault)) := by
  unfold Stream.expectNot
  rw [m.kind_eq hs.peek]
  split
  · exact steps_fault hs.peek _
  · exact steps_passed

mutual

theorem reads_segments {s s' : Stream} (hs : s.Mirrors m.token s') :
    m.Reads (SegmentsMirror m.token) (segments dialect s) (segments dialect' s') := by
  have hkind := m.kind_eq hs.peek
  rw [segments, segments]
  split
  case h_1 h =>
    rw [h] at hkind
    have hlt := Stream.size_advance_lt (s := s) (by simp [h])
    split
    case h_1 =>
      refine (reads_dotted hs.peek hs.advance).bind ?_
      rintro ⟨first, s₁, _⟩ ⟨first', s₁', _⟩ ⟨hfirst, hs₁⟩
      refine (reads_segments hs₁).bind ?_
      rintro ⟨more, s₂, _⟩ ⟨more', s₂', _⟩ ⟨hmore, hs₂⟩
      exact reads_item (.cons (.descendant hs.peek hfirst) hmore) hs₂
    all_goals simp_all
  case h_2 h =>
    rw [h] at hkind
    have hlt := Stream.size_advance_lt (s := s) (by simp [h])
    split
    case h_2 =>
      refine (reads_dotted hs.peek hs.advance).bind ?_
      rintro ⟨first, s₁, _⟩ ⟨first', s₁', _⟩ ⟨hfirst, hs₁⟩
      refine (reads_segments hs₁).bind ?_
      rintro ⟨more, s₂, _⟩ ⟨more', s₂', _⟩ ⟨hmore, hs₂⟩
      exact reads_item (.cons (.child hs.peek hfirst) hmore) hs₂
    all_goals simp_all
  case h_3 h =>
    rw [h] at hkind
    split
    case h_3 =>
      refine (reads_bracketed hs h _).bind ?_
      rintro ⟨first, s₁, _⟩ ⟨first', s₁', _⟩ ⟨hfirst, hs₁⟩
      refine (reads_segments hs₁).bind ?_
      rintro ⟨more, s₂, _⟩ ⟨more', s₂', _⟩ ⟨hmore, hs₂⟩
      exact reads_item (.cons (.child hs.peek hfirst) hmore) hs₂
    all_goals simp_all
  case h_4 =>
    split
    case h_4 => exact reads_item .nil hs
    all_goals simp_all
termination_by (s.size, 2)
decreasing_by
  all_goals first
    | (apply Prod.Lex.left; omega)
    | exact Prod.Lex.right _ (by decide)

theorem reads_dotted {s s' : Stream} {dots dots' : Token} (hdots : m.token dots dots')
    (hs : s.Mirrors m.token s') :
    m.Reads (SelectorsMirror m.token) (dotted dialect dots s) (dotted dialect' dots' s') := by
  have hkind := m.kind_eq hs.peek
  rw [dotted, dotted]
  split
  case h_1 h =>
    rw [h] at hkind
    split
    case h_1 =>
      rw [m.text_eq hs.peek]
      exact reads_item (.cons (.name hs.peek) .nil) hs.advance
    all_goals simp_all
  case h_2 h =>
    rw [h] at hkind
    split
    case h_2 => exact reads_item (.cons (.wildcard hs.peek) .nil) hs.advance
    all_goals simp_all
  case h_3 h =>
    rw [h] at hkind
    split
    case h_3 => exact reads_bracketed hs h _
    all_goals simp_all
  case h_4 =>
    split
    case h_4 =>
      rw [m.text_eq hdots]
      exact steps_fault hdots _
    all_goals simp_all
termination_by (s.size, 1)
decreasing_by exact Prod.Lex.right _ (by decide)

theorem reads_bracketed {s s' : Stream} (hs : s.Mirrors m.token s') (h : s.peek.kind = .openSquare)
    (h' : s'.peek.kind = .openSquare) :
    m.Reads (SelectorsMirror m.token) (bracketed dialect s h) (bracketed dialect' s' h') := by
  have hlt := Stream.size_advance_lt (s := s) (by simp [h])
  rw [bracketed, bracketed]
  rw [m.kind_eq hs.advance.peek]
  split
  · exact steps_fault hs.peek _
  · refine (reads_selectors hs.advance).bind ?_
    rintro ⟨sels, s₁, _⟩ ⟨sels', s₁', _⟩ ⟨hsels, hs₁⟩
    exact reads_item hsels hs₁
termination_by (s.size, 0)
decreasing_by apply Prod.Lex.left; assumption

theorem reads_selectors {s s' : Stream} (hs : s.Mirrors m.token s') :
    m.Reads (SelectorsMirror m.token) (selectors dialect s) (selectors dialect' s') := by
  rw [selectors, selectors]
  refine (reads_selector hs).bind ?_
  rintro ⟨first, s₁, hlt⟩ ⟨first', s₁', hlt'⟩ ⟨hfirst, hs₁⟩
  dsimp only at hfirst hs₁ ⊢
  have hkind := m.kind_eq hs₁.peek
  split
  case h_1 h =>
    rw [h] at hkind
    split
    case h_1 => exact steps_fault hs₁.peek _
    all_goals simp_all
  case h_2 h =>
    rw [h] at hkind
    split
    case h_2 => exact reads_item (.cons hfirst .nil) hs₁.advance
    all_goals simp_all
  case h_3 =>
    refine steps_of_eq fun x hx => ?_
    split
    case h_3 =>
      subst hx
      by_cases hcomma : s₁.peek.kind = .comma
      · have hlt := Stream.size_advance_lt (s := s₁) (by simp [hcomma])
        rw [dif_pos hcomma, dif_pos (hkind ▸ hcomma)]
        refine (steps_expectNot hs₁.advance _ _).bind fun _ _ _ => ?_
        refine (reads_selectors hs₁.advance).bind ?_
        rintro ⟨more, s₂, _⟩ ⟨more', s₂', _⟩ ⟨hmore, hs₂⟩
        exact reads_item (.cons hfirst hmore) hs₂
      · rw [dif_neg hcomma, dif_neg (fun h' => hcomma (hkind.trans h'))]
        exact steps_mismatch hs₁ _
    all_goals simp_all
termination_by (s.size, 1)
decreasing_by
  · exact Prod.Lex.right _ (by decide)
  · apply Prod.Lex.left
    omega

theorem reads_selector {s s' : Stream} (hs : s.Mirrors m.token s') :
    m.Reads (Selector.Mirrors m.token) (selector dialect s) (selector dialect' s') := by
  have hkind := m.kind_eq hs.peek
  rw [selector, selector]
  split
  case h_1 h =>
    rw [h] at hkind
    refine steps_of_eq fun x hx => ?_
    split
    case h_1 =>
      subst hx
      refine (m.index hs.peek h).bind ?_
      rintro n _ rfl
      have hcolon := m.kind_eq hs.advance.peek
      by_cases h₁ : s.advance.peek.kind = .colon
      · rw [dif_pos h₁, dif_pos (hcolon ▸ h₁)]
        refine (reads_sliceRest hs.peek hs.advance.advance).bind ?_
        rintro ⟨sel, s₁, _⟩ ⟨sel', s₁', _⟩ ⟨hsel, hs₁⟩
        exact reads_item hsel hs₁
      · rw [dif_neg h₁, dif_neg (hcolon ▸ h₁)]
        exact reads_item (.index hs.peek) hs.advance
    all_goals simp_all
  case h_2 h =>
    rw [h] at hkind
    split
    case h_2 =>
      refine (literalText hs.peek).bind ?_
      rintro name _ rfl
      exact reads_item (.name hs.peek) hs.advance
    all_goals simp_all
  case h_3 h =>
    rw [h] at hkind
    split
    case h_3 =>
      refine (literalText hs.peek).bind ?_
      rintro name _ rfl
      exact reads_item (.name hs.peek) hs.advance
    all_goals simp_all
  case h_4 h =>
    rw [h] at hkind
    split
    case h_4 =>
      refine (reads_sliceRest hs.peek hs.advance).bind ?_
      rintro ⟨sel, s₁, _⟩ ⟨sel', s₁', _⟩ ⟨hsel, hs₁⟩
      exact reads_item hsel hs₁
    all_goals simp_all
  case h_5 h =>
    rw [h] at hkind
    split
    case h_5 => exact reads_item (.wildcard hs.peek) hs.advance
    all_goals simp_all
  case h_6 h =>
    rw [h] at hkind
    have hlt := Stream.size_advance_lt (s := s) (by simp [h])
    split
    case h_6 =>
      refine (reads_expression .lowest hs.advance).bind ?_
      rintro ⟨e, s₁, _⟩ ⟨e', s₁', _⟩ ⟨he, hs₁⟩
      refine (checkTest he).bind fun _ _ _ => ?_
      exact reads_item (.filter hs.peek he) hs₁
    all_goals simp_all
  case h_7 h =>
    rw [h] at hkind
    split
    case h_7 => exact steps_fault hs.peek _
    all_goals simp_all
  case h_8 =>
    split
    case h_8 =>
      rw [m.text_eq hs.peek]
      exact steps_fault hs.peek _
    all_goals simp_all
termination_by (s.size, 0)
decreasing_by apply Prod.Lex.left; assumption

theorem reads_expression {s s' : Stream} (level : Level) (hs : s.Mirrors m.token s') :
    m.Reads (Expr.Mirrors m.token) (expression dialect level s) (expression dialect' level s') := by
  rw [expression, expression]
  rw [m.kind_eq hs.peek]
  refine (reads_operand hs).bind ?_
  rintro ⟨first, s₁, _⟩ ⟨first', s₁', _⟩ ⟨hfirst, hs₁⟩
  refine (reads_operations level _ hfirst hs₁).bind ?_
  rintro ⟨e, s₂, _⟩ ⟨e', s₂', _⟩ ⟨he, hs₂⟩
  exact reads_item he hs₂
termination_by (s.size, 1)
decreasing_by
  · exact Prod.Lex.right _ (by decide)
  · apply Prod.Lex.left
    assumption

theorem reads_operations {s s' : Stream} (level : Level) (grouped : Bool) {left left' : Expr}
    (hleft : left.Mirrors m.token left') (hs : s.Mirrors m.token s') :
    m.Reads (Expr.Mirrors m.token) (operations dialect level grouped left s)
      (operations dialect' level grouped left' s') := by
  have hkind := m.kind_eq hs.peek
  rw [operations, operations]
  by_cases h : binds s.peek.kind level = true
  · have hlt := Stream.size_advance_lt (s := s) (ne_endOfQuery_of_binds h)
    rw [dif_pos h, dif_pos (hkind ▸ h)]
    by_cases hgrouped : ((comparison? s.peek.kind).isSome && grouped) = true
    · dsimp only
      rw [if_pos hgrouped, if_pos (hkind ▸ hgrouped)]
      exact steps_fault hs.peek _
    · dsimp only
      rw [if_neg hgrouped, if_neg (hkind ▸ hgrouped)]
      refine (reads_operation hleft hs.peek hs.advance).bind ?_
      rintro ⟨next, s₁, _⟩ ⟨next', s₁', _⟩ ⟨hnext, hs₁⟩
      refine (reads_operations level false hnext hs₁).bind ?_
      rintro ⟨e, s₂, _⟩ ⟨e', s₂', _⟩ ⟨he, hs₂⟩
      exact reads_item he hs₂
  · rw [dif_neg h, dif_neg (hkind ▸ h)]
    exact reads_item hleft hs
termination_by (s.size, 0)
decreasing_by
  · apply Prod.Lex.left
    assumption
  · apply Prod.Lex.left
    omega

theorem reads_operation {s s' : Stream} {left left' : Expr} {operator operator' : Token}
    (hleft : left.Mirrors m.token left') (hoperator : m.token operator operator')
    (hs : s.Mirrors m.token s') :
    m.Reads (Expr.Mirrors m.token) (operation dialect left operator s)
      (operation dialect' left' operator' s') := by
  rw [operation, operation, ← m.kind_eq hoperator, ← m.kind_eq hs.peek]
  split
  next comparison _ =>
    split
    · exact steps_fault hs.peek _
    · refine (reads_expression .relation hs).bind ?_
      rintro ⟨right, s₁, _⟩ ⟨right', s₁', _⟩ ⟨hright, hs₁⟩
      refine (checkComparable hleft).bind fun _ _ _ => ?_
      refine (checkComparable hright).bind fun _ _ _ => ?_
      exact reads_item (.comparison hoperator hleft hright) hs₁
  · refine (reads_expression _ hs).bind ?_
    rintro ⟨right, s₁, _⟩ ⟨right', s₁', _⟩ ⟨hright, hs₁⟩
    refine (checkTest hleft).bind fun _ _ _ => ?_
    refine (checkTest hright).bind fun _ _ _ => ?_
    refine reads_item ?_ hs₁
    dsimp only
    split
    · exact .conjunction hoperator hleft hright
    · exact .disjunction hoperator hleft hright
termination_by (s.size, 2)
decreasing_by all_goals exact Prod.Lex.right _ (by decide)

theorem reads_operand {s s' : Stream} (hs : s.Mirrors m.token s') :
    m.Reads (Expr.Mirrors m.token) (operand dialect s) (operand dialect' s') := by
  have hkind := m.kind_eq hs.peek
  rw [operand, operand]
  split
  case h_1 h =>
    rw [h] at hkind
    split
    case h_1 =>
      refine (literalText hs.peek).bind ?_
      rintro text _ rfl
      exact reads_item (.literal hs.peek) hs.advance
    all_goals simp_all
  case h_2 h =>
    rw [h] at hkind
    split
    case h_2 =>
      refine (literalText hs.peek).bind ?_
      rintro text _ rfl
      exact reads_item (.literal hs.peek) hs.advance
    all_goals simp_all
  case h_3 h =>
    rw [h] at hkind
    split
    case h_3 =>
      refine (m.number hs.peek (.inl h)).bind ?_
      rintro n _ rfl
      exact reads_item (.literal hs.peek) hs.advance
    all_goals simp_all
  case h_4 h =>
    rw [h] at hkind
    split
    case h_4 =>
      refine (m.number hs.peek (.inr h)).bind ?_
      rintro n _ rfl
      exact reads_item (.literal hs.peek) hs.advance
    all_goals simp_all
  case h_5 h =>
    rw [h] at hkind
    split
    case h_5 => exact reads_item (.literal hs.peek) hs.advance
    all_goals simp_all
  case h_6 h =>
    rw [h] at hkind
    split
    case h_6 => exact reads_item (.literal hs.peek) hs.advance
    all_goals simp_all
  case h_7 h =>
    rw [h] at hkind
    split
    case h_7 => exact reads_item (.literal hs.peek) hs.advance
    all_goals simp_all
  case h_8 h =>
    rw [h] at hkind
    have hlt := Stream.size_advance_lt (s := s) (by simp [h])
    split
    case h_8 =>
      refine (reads_expression .unary hs.advance).bind ?_
      rintro ⟨e, s₁, _⟩ ⟨e', s₁', _⟩ ⟨he, hs₁⟩
      refine (checkTest he).bind fun _ _ _ => ?_
      exact reads_item (.negation hs.peek he) hs₁
    all_goals simp_all
  case h_9 h =>
    rw [h] at hkind
    have hlt := Stream.size_advance_lt (s := s) (by simp [h])
    split
    case h_9 =>
      refine (reads_expression .lowest hs.advance).bind ?_
      rintro ⟨e, s₁, _⟩ ⟨e', s₁', _⟩ ⟨he, hs₁⟩
      dsimp only at he hs₁ ⊢
      have hclosing := m.kind_eq hs₁.peek
      by_cases hclose : s₁.peek.kind = .closeParen
      · rw [dif_pos hclose, dif_pos (hclosing ▸ hclose)]
        refine (checkTest he).bind fun _ _ _ => ?_
        exact reads_item he hs₁.advance
      · rw [dif_neg hclose, dif_neg (hclosing ▸ hclose)]
        exact steps_mismatch hs₁ _
    all_goals simp_all
  case h_10 h =>
    rw [h] at hkind
    have hlt := Stream.size_advance_lt (s := s) (by simp [h])
    split
    case h_10 =>
      refine (reads_segments hs.advance).bind ?_
      rintro ⟨segs, s₁, _⟩ ⟨segs', s₁', _⟩ ⟨hsegs, hs₁⟩
      exact reads_item (.absolute hs.peek hsegs) hs₁
    all_goals simp_all
  case h_11 h =>
    rw [h] at hkind
    have hlt := Stream.size_advance_lt (s := s) (by simp [h])
    split
    case h_11 =>
      refine (reads_segments hs.advance).bind ?_
      rintro ⟨segs, s₁, _⟩ ⟨segs', s₁', _⟩ ⟨hsegs, hs₁⟩
      exact reads_item (.relative hs.peek hsegs) hs₁
    all_goals simp_all
  case h_12 h =>
    rw [h] at hkind
    have hlt := Stream.size_advance_lt (s := s) (by simp [h])
    split
    case h_12 =>
      refine (reads_call hs.peek hs.advance).bind ?_
      rintro ⟨e, s₁, _⟩ ⟨e', s₁', _⟩ ⟨he, hs₁⟩
      exact reads_item he hs₁
    all_goals simp_all
  case h_13 h =>
    rw [h] at hkind
    split
    case h_13 => exact steps_fault hs.peek _
    all_goals simp_all
  case h_14 =>
    split
    case h_14 =>
      rw [m.text_eq hs.peek]
      exact steps_fault hs.peek _
    all_goals simp_all
termination_by (s.size, 0)
decreasing_by all_goals (apply Prod.Lex.left; assumption)

theorem reads_call {s s' : Stream} {function function' : Token}
    (hfunction : m.token function function') (hs : s.Mirrors m.token s') :
    m.Reads (Expr.Mirrors m.token) (call dialect function s) (call dialect' function' s') := by
  have hkind := m.kind_eq hs.peek
  have hclosing := m.kind_eq hs.advance.peek
  rw [call, call, ← m.text_eq hfunction]
  by_cases h : s.peek.kind = .openParen
  · have hlt := Stream.size_advance_lt (s := s) (by simp [h])
    have h' : s'.peek.kind = .openParen := hkind ▸ h
    rw [dif_pos h, dif_pos h']
    by_cases hclose : s.advance.peek.kind = .closeParen
    · rw [dif_pos hclose, dif_pos (hclosing ▸ hclose)]
      refine (checkCall hfunction .nil _).bind fun _ _ _ => ?_
      exact reads_item (.call hfunction .nil) hs.advance.advance
    · rw [dif_neg hclose, dif_neg (fun h' => hclose (hclosing.trans h'))]
      refine (reads_arguments hs.advance).bind ?_
      rintro ⟨given, s₁, _⟩ ⟨given', s₁', _⟩ ⟨hgiven, hs₁⟩
      refine (checkCall hfunction hgiven _).bind fun _ _ _ => ?_
      exact reads_item (.call hfunction hgiven) hs₁
  · rw [dif_neg h, dif_neg (hkind ▸ h)]
    exact steps_mismatch hs _
termination_by (s.size, 0)
decreasing_by apply Prod.Lex.left; assumption

theorem reads_arguments {s s' : Stream} (hs : s.Mirrors m.token s') :
    m.Reads (ArgumentsMirror m.token) (arguments dialect s) (arguments dialect' s') := by
  rw [arguments, arguments]
  refine (reads_expression .lowest hs).bind ?_
  rintro ⟨first, s₁, hlt⟩ ⟨first', s₁', hlt'⟩ ⟨hfirst, hs₁⟩
  dsimp only at hfirst hs₁ ⊢
  have hkind := m.kind_eq hs₁.peek
  by_cases hclose : s₁.peek.kind = .closeParen
  · rw [dif_pos hclose, dif_pos (hkind ▸ hclose)]
    exact reads_item (.cons hfirst .nil) hs₁.advance
  · rw [dif_neg hclose, dif_neg (fun h' => hclose (hkind.trans h'))]
    by_cases hcomma : s₁.peek.kind = .comma
    · have hlt := Stream.size_advance_lt (s := s₁) (by simp [hcomma])
      rw [dif_pos hcomma, dif_pos (hkind ▸ hcomma)]
      refine (steps_expectNot hs₁.advance _ _).bind fun _ _ _ => ?_
      refine (reads_arguments hs₁.advance).bind ?_
      rintro ⟨more, s₂, _⟩ ⟨more', s₂', _⟩ ⟨hmore, hs₂⟩
      exact reads_item (.cons hfirst hmore) hs₂
    · rw [dif_neg hcomma, dif_neg (hkind ▸ hcomma)]
      exact steps_mismatch hs₁ _
termination_by (s.size, 2)
decreasing_by
  · exact Prod.Lex.right _ (by decide)
  · apply Prod.Lex.left
    omega

end

theorem steps_query (hs : s.Mirrors m.token s') :
    m.Steps (SegmentsMirror m.token) (query dialect s) (query dialect' s') := by
  unfold query Stream.expect
  have hkind := m.kind_eq hs.peek
  by_cases hroot : s.peek.kind = .root
  · rw [if_pos hroot, if_pos (hkind ▸ hroot)]
    refine steps_passed.bind fun _ _ _ => ?_
    refine (reads_segments hs.advance).bind ?_
    rintro ⟨segs, s₁, _⟩ ⟨segs', s₁', _⟩ ⟨hsegs, hs₁⟩
    dsimp only at hsegs hs₁ ⊢
    rw [m.kind_eq hs₁.peek, m.text_eq hs₁.peek]
    split
    · exact .ok hsegs
    · exact steps_fault hs₁.peek _
  · rw [if_neg hroot, if_neg (fun h => hroot (hkind.trans h))]
    exact steps_mismatch hs _

/-- The queries of two token sequences that stand for each other mirror each other. -/
theorem steps_ofTokens {ts us : List Token} {final final' : Token}
    (h : List.Forall₂ m.token ts us) (hfinal : m.token final final')
    (hkind : final.kind = .endOfQuery) :
    m.Steps (SegmentsMirror m.token) (Query.ofTokens dialect (ts ++ [final]))
      (Query.ofTokens dialect' (us ++ [final'])) := by
  unfold Query.ofTokens
  rw [Stream.ofTokens?_append hkind, Stream.ofTokens?_append (m.kind_eq hfinal ▸ hkind)]
  exact steps_query ⟨h, hfinal⟩

end Mirror

end Parser

theorem Query.ofText_of_ofQuery {dialect : Dialect} {text : Text} {tokens : List Token}
    (h : Token.ofQuery text = .ok tokens) :
    Query.ofText dialect text = Query.ofTokens dialect tokens := by
  unfold Query.ofText
  rw [h]

end JsonPath
