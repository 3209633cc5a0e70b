import JsonPath.Proofs.Evaluation.Types
import JsonPath.Query.Canonical

/-!
# Queries without their tokens

The tokens of a query serve its diagnostics. Without them, and with the step that a slice leaves out
filled in, a query has the same text, the same types and, as is shown elsewhere, the same nodes.
-/

namespace JsonPath

def Token.blank : Token := ⟨.endOfQuery, "", 0, 0, ""⟩

mutual

/-- The expression with all tokens the same and all steps filled in. -/
def Expr.bare : Expr → Expr
  | .literal _ literal => .literal .blank literal
  | .negation _ operand => .negation .blank operand.bare
  | .conjunction _ left right => .conjunction .blank left.bare right.bare
  | .disjunction _ left right => .disjunction .blank left.bare right.bare
  | .comparison _ left operator right => .comparison .blank left.bare operator right.bare
  | .relative _ segments => .relative .blank (bareSegments segments)
  | .absolute _ segments => .absolute .blank (bareSegments segments)
  | .call _ name arguments => .call .blank name (bareArguments arguments)

def bareArguments : List Expr → List Expr
  | [] => []
  | argument :: rest => argument.bare :: bareArguments rest

def Selector.bare : Selector → Selector
  | .name _ name => .name .blank name
  | .index _ index => .index .blank index
  | .wildcard _ => .wildcard .blank
  | .slice _ start? stop? step? => .slice .blank start? stop? (some (step?.getD 1))
  | .filter _ expression => .filter .blank expression.bare

def bareSelectors : List Selector → List Selector
  | [] => []
  | selector :: rest => selector.bare :: bareSelectors rest

def Segment.bare : Segment → Segment
  | .child _ selectors => .child .blank (bareSelectors selectors)
  | .descendant _ selectors => .descendant .blank (bareSelectors selectors)

def bareSegments : List Segment → List Segment
  | [] => []
  | segment :: rest => segment.bare :: bareSegments rest

end

/-! ### Texts -/

mutual

theorem Expr.text_bare : ∀ e : Expr, e.bare.text = e.text
  | .literal _ _ => rfl
  | .negation _ operand => by
    rw [Expr.bare, Expr.text, Expr.text, Expr.text_bare operand]
  | .conjunction _ left right | .disjunction _ left right | .comparison _ left _ right => by
    rw [Expr.bare, Expr.text, Expr.text, Expr.text_bare left, Expr.text_bare right]
  | .relative _ segments | .absolute _ segments => by
    rw [Expr.bare, Expr.text, Expr.text, segmentsText_bare segments]
  | .call _ _ arguments => by
    rw [Expr.bare, Expr.text, Expr.text, argumentTexts_bare arguments]

theorem argumentTexts_bare : ∀ arguments : List Expr,
    argumentTexts (bareArguments arguments) = argumentTexts arguments
  | [] => rfl
  | argument :: rest => by
    rw [bareArguments, argumentTexts, argumentTexts, Expr.text_bare argument,
      argumentTexts_bare rest]

theorem Selector.text_bare : ∀ selector : Selector, selector.bare.text = selector.text
  | .name _ _ | .index _ _ | .wildcard _ | .slice _ _ _ _ => rfl
  | .filter _ expression => by
    rw [Selector.bare, Selector.text, Selector.text, Expr.text_bare expression]

theorem selectorTexts_bare : ∀ selectors : List Selector,
    selectorTexts (bareSelectors selectors) = selectorTexts selectors
  | [] => rfl
  | selector :: rest => by
    rw [bareSelectors, selectorTexts, selectorTexts, Selector.text_bare selector,
      selectorTexts_bare rest]

theorem Segment.text_bare : ∀ segment : Segment, segment.bare.text = segment.text
  | .child _ selectors | .descendant _ selectors => by
    rw [Segment.bare, Segment.text, Segment.text, selectorTexts_bare selectors]

theorem segmentsText_bare : ∀ segments : List Segment,
    segmentsText (bareSegments segments) = segmentsText segments
  | [] => rfl
  | segment :: rest => by
    rw [bareSegments, segmentsText, segmentsText, Segment.text_bare segment, segmentsText_bare rest]

end

theorem Query.text_bare (query : Query) : Query.text (bareSegments query) = query.text := by
  rw [Query.text, Query.text, segmentsText_bare]

/-! ### Types -/

variable {signatures : Signatures}

theorem Selector.isSingular_bare (selector : Selector) :
    selector.bare.isSingular = selector.isSingular := by
  cases selector <;> rfl

theorem Segment.isSingular_bare (segment : Segment) :
    segment.bare.isSingular = segment.isSingular := by
  match segment with
  | .child _ [] | .child _ (_ :: _ :: _) | .descendant _ _ => rfl
  | .child _ [selector] => exact selector.isSingular_bare

theorem Query.isSingular_bare (query : Query) :
    Query.isSingular (bareSegments query) = query.isSingular := by
  induction query with
  | nil => rfl
  | cons segment rest ih =>
    unfold Query.isSingular at ih ⊢
    rw [bareSegments, List.all_cons, List.all_cons, segment.isSingular_bare, ih]

theorem Expr.isSingularQuery_bare (e : Expr) : e.bare.isSingularQuery = e.isSingularQuery := by
  cases e with
  | relative _ segments | absolute _ segments => exact Query.isSingular_bare segments
  | _ => rfl

theorem Expr.resultType?_bare (e : Expr) :
    e.bare.resultType? signatures = e.resultType? signatures := by
  cases e <;> rfl

theorem Expr.fits_bare (e : Expr) (type : ExprType) :
    e.bare.fits signatures type = e.fits signatures type := by
  have hsingular := e.isSingularQuery_bare
  have hresult : e.bare.resultType? signatures = e.resultType? signatures := e.resultType?_bare
  cases type <;> cases e <;> simp_all [Expr.bare, Expr.fits, Expr.isQuery]

end JsonPath
