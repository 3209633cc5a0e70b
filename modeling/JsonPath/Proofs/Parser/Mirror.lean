import JsonPath.Query.Parser
import Mathlib.Data.List.Forall2

/-!
# Two runs of the parser side by side

The parser asks for the kinds and the texts of tokens only, and for the dialect where an index is
read or a function is checked. So two runs on tokens that agree in kind and text take the same
steps. What each of them makes differs no more than the tokens do; and where one of them fails, so
does the other, with the same fault at the token in the same place.

Which tokens stand for each other, and which failures, is left to the use that is made of this.
-/

namespace JsonPath

variable {token : Token → Token → Prop}

/-! ### Trees -/

section

variable (token : Token → Token → Prop)

mutual

/-- The expressions are the same up to their tokens, which stand for each other. -/
inductive Expr.Mirrors : Expr → Expr → Prop
  | literal {t u : Token} {literal : Literal} : token t u →
      Expr.Mirrors (.literal t literal) (.literal u literal)
  | negation {t u : Token} {e e' : Expr} : token t u → Expr.Mirrors e e' →
      Expr.Mirrors (.negation t e) (.negation u e')
  | conjunction {t u : Token} {left left' right right' : Expr} : token t u →
      Expr.Mirrors left left' → Expr.Mirrors right right' →
      Expr.Mirrors (.conjunction t left right) (.conjunction u left' right')
  | disjunction {t u : Token} {left left' right right' : Expr} : token t u →
      Expr.Mirrors left left' → Expr.Mirrors right right' →
      Expr.Mirrors (.disjunction t left right) (.disjunction u left' right')
  | comparison {t u : Token} {left left' right right' : Expr} {operator : Comparison} :
      token t u → Expr.Mirrors left left' → Expr.Mirrors right right' →
      Expr.Mirrors (.comparison t left operator right) (.comparison u left' operator right')
  | relative {t u : Token} {segs segs' : List Segment} : token t u →
      SegmentsMirror segs segs' → Expr.Mirrors (.relative t segs) (.relative u segs')
  | absolute {t u : Token} {segs segs' : List Segment} : token t u →
      SegmentsMirror segs segs' → Expr.Mirrors (.absolute t segs) (.absolute u segs')
  | call {t u : Token} {name : Text} {given given' : List Expr} : token t u →
      ArgumentsMirror given given' → Expr.Mirrors (.call t name given) (.call u name given')

inductive ArgumentsMirror : List Expr → List Expr → Prop
  | nil : ArgumentsMirror [] []
  | cons {e e' : Expr} {given given' : List Expr} : Expr.Mirrors e e' →
      ArgumentsMirror given given' → ArgumentsMirror (e :: given) (e' :: given')

inductive Selector.Mirrors : Selector → Selector → Prop
  | name {t u : Token} {name : Text} : token t u → Selector.Mirrors (.name t name) (.name u name)
  | index {t u : Token} {i : Int} : token t u → Selector.Mirrors (.index t i) (.index u i)
  | wildcard {t u : Token} : token t u → Selector.Mirrors (.wildcard t) (.wildcard u)
  | slice {t u : Token} {start? stop? step? : Option Int} : token t u →
      Selector.Mirrors (.slice t start? stop? step?) (.slice u start? stop? step?)
  | filter {t u : Token} {e e' : Expr} : token t u → Expr.Mirrors e e' →
      Selector.Mirrors (.filter t e) (.filter u e')

inductive SelectorsMirror : List Selector → List Selector → Prop
  | nil : SelectorsMirror [] []
  | cons {sel sel' : Selector} {sels sels' : List Selector} : Selector.Mirrors sel sel' →
      SelectorsMirror sels sels' → SelectorsMirror (sel :: sels) (sel' :: sels')

inductive Segment.Mirrors : Segment → Segment → Prop
  | child {t u : Token} {sels sels' : List Selector} : token t u → SelectorsMirror sels sels' →
      Segment.Mirrors (.child t sels) (.child u sels')
  | descendant {t u : Token} {sels sels' : List Selector} : token t u →
      SelectorsMirror sels sels' → Segment.Mirrors (.descendant t sels) (.descendant u sels')

inductive SegmentsMirror : List Segment → List Segment → Prop
  | nil : SegmentsMirror [] []
  | cons {seg seg' : Segment} {segs segs' : List Segment} : Segment.Mirrors seg seg' →
      SegmentsMirror segs segs' → SegmentsMirror (seg :: segs) (seg' :: segs')

end

end

mutual

/-- Trees whose tokens are equal are equal. -/
theorem Expr.eq_of_mirrors (h : ∀ {t u : Token}, token t u → t = u) :
    ∀ {e e' : Expr}, e.Mirrors token e' → e = e'
  | _, _, .literal ht => by rw [h ht]
  | _, _, .negation ht he => by rw [h ht, Expr.eq_of_mirrors h he]
  | _, _, .conjunction ht hleft hright | _, _, .disjunction ht hleft hright
  | _, _, .comparison ht hleft hright => by
    rw [h ht, Expr.eq_of_mirrors h hleft, Expr.eq_of_mirrors h hright]
  | _, _, .relative ht hsegs | _, _, .absolute ht hsegs => by
    rw [h ht, segments_eq_of_mirror h hsegs]
  | _, _, .call ht hgiven => by rw [h ht, arguments_eq_of_mirror h hgiven]

theorem arguments_eq_of_mirror (h : ∀ {t u : Token}, token t u → t = u) :
    ∀ {given given' : List Expr}, ArgumentsMirror token given given' → given = given'
  | _, _, .nil => rfl
  | _, _, .cons he hgiven => by rw [Expr.eq_of_mirrors h he, arguments_eq_of_mirror h hgiven]

theorem Selector.eq_of_mirrors (h : ∀ {t u : Token}, token t u → t = u) :
    ∀ {sel sel' : Selector}, sel.Mirrors token sel' → sel = sel'
  | _, _, .name ht | _, _, .index ht | _, _, .wildcard ht | _, _, .slice ht => by rw [h ht]
  | _, _, .filter ht he => by rw [h ht, Expr.eq_of_mirrors h he]

theorem selectors_eq_of_mirror (h : ∀ {t u : Token}, token t u → t = u) :
    ∀ {sels sels' : List Selector}, SelectorsMirror token sels sels' → sels = sels'
  | _, _, .nil => rfl
  | _, _, .cons hsel hsels => by rw [Selector.eq_of_mirrors h hsel, selectors_eq_of_mirror h hsels]

theorem Segment.eq_of_mirrors (h : ∀ {t u : Token}, token t u → t = u) :
    ∀ {seg seg' : Segment}, seg.Mirrors token seg' → seg = seg'
  | _, _, .child ht hsels | _, _, .descendant ht hsels => by
    rw [h ht, selectors_eq_of_mirror h hsels]

theorem segments_eq_of_mirror (h : ∀ {t u : Token}, token t u → t = u) :
    ∀ {segs segs' : List Segment}, SegmentsMirror token segs segs' → segs = segs'
  | _, _, .nil => rfl
  | _, _, .cons hseg hsegs => by rw [Segment.eq_of_mirrors h hseg, segments_eq_of_mirror h hsegs]

end

/-! ### Streams -/

/-- The streams have as many tokens, which stand for each other. -/
structure Stream.Mirrors (token : Token → Token → Prop) (s s' : Stream) : Prop where
  ahead : List.Forall₂ token s.ahead s'.ahead
  final : token s.final s'.final

namespace Stream.Mirrors

variable {s s' : Stream}

theorem peek (h : s.Mirrors token s') : token s.peek s'.peek := by
  obtain ⟨hahead, hfinal⟩ := h
  obtain ⟨ahead, final, _⟩ := s
  obtain ⟨ahead', final', _⟩ := s'
  cases hahead with
  | nil => exact hfinal
  | cons hfirst => exact hfirst

theorem advance (h : s.Mirrors token s') : s.advance.Mirrors token s'.advance := by
  obtain ⟨hahead, hfinal⟩ := h
  obtain ⟨ahead, final, _⟩ := s
  obtain ⟨ahead', final', _⟩ := s'
  cases hahead with
  | nil => exact ⟨.nil, hfinal⟩
  | cons _ hrest => exact ⟨hrest, hfinal⟩

end Stream.Mirrors

/-! ### Outcomes -/

/-- The outcomes of two runs: related results, or failures that stand for each other. A failure of
the first run may be excused, whatever becomes of the second. -/
inductive Outcome {α β : Type} (failure : CompileError → CompileError → Prop)
    (excused : CompileError → Prop) (related : α → β → Prop) :
    Except CompileError α → Except CompileError β → Prop
  | ok {a : α} {b : β} : related a b → Outcome failure excused related (.ok a) (.ok b)
  | error {e e' : CompileError} : failure e e' →
      Outcome failure excused related (.error e) (.error e')
  | excused {e : CompileError} {y : Except CompileError β} : excused e →
      Outcome failure excused related (.error e) y

namespace Outcome

variable {failure : CompileError → CompileError → Prop} {excused : CompileError → Prop}
  {α β γ δ : Type} {related : α → β → Prop} {related' : γ → δ → Prop}
  {x : Except CompileError α} {y : Except CompileError β}

theorem bind {f : α → Except CompileError γ} {g : β → Except CompileError δ}
    (h : Outcome failure excused related x y)
    (hfg : ∀ a b, related a b → Outcome failure excused related' (f a) (g b)) :
    Outcome failure excused related' (x >>= f) (y >>= g) := by
  cases h with
  | ok hab => exact hfg _ _ hab
  | error he => exact .error he
  | excused he => exact .excused he

theorem self (h : ∀ e, x = .error e → failure e e) : Outcome failure excused (· = ·) x x := by
  cases x with
  | error e => exact .error (h e rfl)
  | ok a => exact .ok rfl

end Outcome

/-- The dialects declare the same functions. -/
abbrev Dialect.SameFunctions (dialect dialect' : Dialect) : Prop :=
  dialect.signatures = dialect'.signatures

theorem Dialect.SameFunctions.refl (dialect : Dialect) : dialect.SameFunctions dialect := rfl

namespace Parser

/-- What it takes for two runs of the parser to mirror each other. -/
structure Mirror (dialect dialect' : Dialect) where
  token : Token → Token → Prop
  failure : CompileError → CompileError → Prop
  excused : CompileError → Prop
  kind_eq : ∀ {t u : Token}, token t u → t.kind = u.kind
  text_eq : ∀ {t u : Token}, token t u → t.text = u.text
  signatures_eq : dialect.SameFunctions dialect'
  fault : ∀ {t u : Token} (fault : QueryFault), token t u →
    failure (.query ⟨fault, some t⟩) (.query ⟨fault, some u⟩)
  index : ∀ {t u : Token}, token t u → t.kind = .integer →
    Outcome failure excused (· = ·) (Parser.index dialect t) (Parser.index dialect' u)
  number : ∀ {t u : Token}, token t u → t.kind = .integer ∨ t.kind = .decimal →
    Outcome failure excused (· = ·) (Parser.number t) (Parser.number u)

namespace Mirror

variable {dialect dialect' : Dialect} (m : Mirror dialect dialect')

/-- The outcomes of two steps of the parser. -/
def Steps {α β : Type} (related : α → β → Prop) :
    Except CompileError α → Except CompileError β → Prop :=
  Outcome m.failure m.excused related

/-- Related items, and streams after them that stand for each other. -/
def Reads {bound bound' : Nat} {α β : Type} (related : α → β → Prop) :
    Except CompileError (Parsed bound α) → Except CompileError (Parsed bound' β) → Prop :=
  m.Steps fun p q => related p.item q.item ∧ p.rest.Mirrors m.token q.rest

variable {m}

/-! ### Static checks -/

section

variable {signatures : Signatures} {e e' : Expr}

theorem isQuery_of_mirrors (h : e.Mirrors m.token e') : e.isQuery = e'.isQuery := by
  cases h <;> rfl

theorem resultType?_of_mirrors (signatures : Signatures) (h : e.Mirrors m.token e') :
    e.resultType? signatures = e'.resultType? signatures := by
  cases h <;> rfl

theorem isSingular_of_segmentMirrors {seg seg' : Segment} (h : seg.Mirrors m.token seg') :
    seg.isSingular = seg'.isSingular := by
  cases h with
  | descendant => rfl
  | child _ hsels =>
    cases hsels with
    | nil => rfl
    | cons hsel hrest =>
      cases hrest with
      | nil => cases hsel <;> rfl
      | cons => rfl

theorem isSingular_of_segmentsMirror {segs segs' : List Segment}
    (h : SegmentsMirror m.token segs segs') : Query.isSingular segs = Query.isSingular segs' := by
  induction segs generalizing segs' with
  | nil =>
    cases h
    rfl
  | cons seg segs ih =>
    cases h with
    | cons hseg hsegs =>
      unfold Query.isSingular at ih ⊢
      rw [List.all_cons, List.all_cons, isSingular_of_segmentMirrors hseg, ih hsegs]

theorem isSingularQuery_of_mirrors (h : e.Mirrors m.token e') :
    e.isSingularQuery = e'.isSingularQuery := by
  cases h with
  | relative _ hsegs | absolute _ hsegs => exact isSingular_of_segmentsMirror hsegs
  | _ => rfl

theorem fits_of_mirrors (h : e.Mirrors m.token e') (type : ExprType) :
    e.fits signatures type = e'.fits signatures type := by
  have hquery := isQuery_of_mirrors h
  have hsingular := isSingularQuery_of_mirrors h
  have hresult := resultType?_of_mirrors signatures h
  cases type <;> cases h <;> simp_all [Expr.fits]

theorem misfit?_of_mirrors {given given' : List Expr} (h : ArgumentsMirror m.token given given')
    (place : Nat) (parameters : List ExprType) :
    misfit? signatures place given parameters = misfit? signatures place given' parameters := by
  induction given generalizing given' place parameters with
  | nil =>
    cases h
    rfl
  | cons e given ih =>
    cases h with
    | cons he hgiven =>
      cases parameters with
      | nil => rfl
      | cons parameter parameters =>
        rw [misfit?, misfit?, fits_of_mirrors he, ih hgiven]

theorem length_of_mirrors {given given' : List Expr} (h : ArgumentsMirror m.token given given') :
    given.length = given'.length := by
  induction given generalizing given' with
  | nil =>
    cases h
    rfl
  | cons e given ih =>
    cases h with
    | cons he hgiven => rw [List.length_cons, List.length_cons, ih hgiven]

end

section

variable {e e' : Expr} {t u : Token}

/-- A fault at tokens that stand for each other. -/
theorem steps_fault {α β : Type} {related : α → β → Prop} (h : m.token t u) (fault : QueryFault) :
    m.Steps related (.error (.query ⟨fault, some t⟩)) (.error (.query ⟨fault, some u⟩)) :=
  .error (m.fault fault h)

/-- Nothing comes of a check but whether it is passed. -/
theorem steps_passed : m.Steps (fun _ _ => True) (.ok ()) (.ok ()) := .ok trivial

theorem checkTest (h : e.Mirrors m.token e') :
    m.Steps (fun _ _ => True) (require (e.checkTest dialect.signatures))
      (require (e'.checkTest dialect'.signatures)) := by
  rw [← m.signatures_eq]
  cases h with
  | literal ht => exact steps_fault ht _
  | @call t u name given given' ht _ =>
    have hresult : (Expr.call t name given).resultType? dialect.signatures =
      (Expr.call u name given').resultType? dialect.signatures := rfl
    unfold Expr.checkTest
    dsimp only
    rw [hresult]
    split
    · exact steps_fault ht _
    · exact steps_passed
  | _ => exact steps_passed

theorem checkComparable (h : e.Mirrors m.token e') :
    m.Steps (fun _ _ => True) (require (e.checkComparable dialect.signatures))
      (require (e'.checkComparable dialect'.signatures)) := by
  rw [← m.signatures_eq]
  cases h with
  | literal => exact steps_passed
  | relative ht hsegs | absolute ht hsegs =>
    unfold Expr.checkComparable
    dsimp only
    rw [isSingular_of_segmentsMirror hsegs]
    split
    · exact steps_passed
    · exact steps_fault ht _
  | @call t u name given given' ht _ =>
    have hresult : (Expr.call t name given).resultType? dialect.signatures =
      (Expr.call u name given').resultType? dialect.signatures := rfl
    unfold Expr.checkComparable
    dsimp only
    rw [hresult]
    split
    · exact steps_passed
    · exact steps_fault ht _
  | negation ht | conjunction ht | disjunction ht | comparison ht => exact steps_fault ht _

theorem checkCall {given given' : List Expr} (ht : m.token t u)
    (h : ArgumentsMirror m.token given given') (name : Text) :
    m.Steps (fun _ _ => True) (require (checkCall dialect.signatures t name given))
      (require (JsonPath.checkCall dialect'.signatures u name given')) := by
  rw [← m.signatures_eq]
  unfold JsonPath.checkCall
  split
  · exact steps_fault ht _
  next signature _ =>
    rw [length_of_mirrors h, misfit?_of_mirrors h]
    split
    · split
      · exact steps_passed
      · exact steps_fault ht _
    · exact steps_fault ht _

theorem literalText (ht : m.token t u) :
    m.Steps (· = ·) (require t.literalText) (require u.literalText) := by
  unfold Token.literalText
  rw [m.kind_eq ht, m.text_eq ht]
  dsimp only
  split
  · exact .ok rfl
  · exact steps_fault ht _

end

end Mirror

end Parser

end JsonPath
