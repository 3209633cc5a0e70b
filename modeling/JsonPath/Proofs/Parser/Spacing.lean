import JsonPath.Environment
import JsonPath.Proofs.Canonical.RoundTrip
import JsonPath.Proofs.Parser.Mirroring
import JsonPath.Proofs.Token.Spacing
import JsonPath.Query.Equality

/-!
# Blanks in queries

Blanks between the tokens of a text make no difference to what is compiled from it. The tokens stay
the same but for their places, and the parser mirrors itself on tokens of the same kinds and texts.
-/

namespace JsonPath

/-! ### Queries from tokens of the same shapes -/

/-- The tokens have the same kind and text. -/
abbrev Token.SameShape (t u : Token) : Prop := t.shape = u.shape

theorem Token.same_of_shape {t u : Token} (h : t.SameShape u) : t.same u = true := by
  obtain ⟨hkind, htext⟩ := Prod.mk.inj h
  unfold Token.same
  rw [hkind, htext, beq_self_eq_true, beq_self_eq_true]
  rfl

theorem Number.same_self {n : Number} (h : n ≠ .double .nan) : n.same n = true := by
  obtain ⟨place, hplace⟩ : ∃ place, n.place? = some place := by
    match n, h with
    | .integer _, _ | .double (.finite _ _), _ | .double (.infinite _), _ => exact ⟨_, rfl⟩
    | .double .nan, h => exact absurd rfl h
  rw [Number.same, hplace]
  exact decide_eq_true rfl

theorem Literal.same_self {literal : Literal} (h : literal.Proper) :
    literal.same literal = true := by
  unfold Literal.same
  match literal, h with
  | .null, _ => rfl
  | .boolean _, _ => exact Number.same_self fun heq => by cases heq
  | .string _, _ => exact beq_self_eq_true _
  | .number (.integer n), _ => exact Number.same_self (n := .integer n) fun heq => by cases heq
  | .number (.double d), h => exact Number.same_self fun heq => h (Number.double.inj heq)

variable {dialect : Dialect}

mutual

theorem Expr.same_of_mirrors : ∀ {e e' : Expr}, e.Mirrors Token.SameShape e' → e.Proper dialect →
    e.same e' = true
  | _, _, .literal ht, hp => by
    simp [Expr.same, Token.same_of_shape ht, Literal.same_self hp]
  | _, _, .negation ht he, hp => by
    simp [Expr.same, Token.same_of_shape ht, Expr.same_of_mirrors he hp.1]
  | _, _, .conjunction ht hleft hright, hp | _, _, .disjunction ht hleft hright, hp => by
    simp [Expr.same, Token.same_of_shape ht, Expr.same_of_mirrors hleft hp.1,
      Expr.same_of_mirrors hright hp.2.1]
  | _, _, .comparison ht hleft hright, hp => by
    simp [Expr.same, Token.same_of_shape ht, Expr.same_of_mirrors hleft hp.1,
      Expr.same_of_mirrors hright hp.2]
  | _, _, .relative ht hsegs, hp | _, _, .absolute ht hsegs, hp => by
    simp [Expr.same, Token.same_of_shape ht, sameSegments_of_mirror hsegs hp]
  | _, _, .call ht hgiven, hp => by
    simp [Expr.same, Token.same_of_shape ht, sameArguments_of_mirror hgiven hp.2]

theorem sameArguments_of_mirror : ∀ {given given' : List Expr},
    ArgumentsMirror Token.SameShape given given' → argumentsProper dialect given →
      sameArguments given given' = true
  | _, _, .nil, _ => by rw [sameArguments]
  | _, _, .cons he hgiven, hp => by
    rw [sameArguments, Expr.same_of_mirrors he hp.1, sameArguments_of_mirror hgiven hp.2]
    rfl

theorem Selector.same_of_mirrors : ∀ {sel sel' : Selector},
    sel.Mirrors Token.SameShape sel' → sel.Proper dialect → sel.same sel' = true
  | _, _, .name ht, _ | _, _, .index ht, _ | _, _, .slice ht, _ | _, _, .wildcard ht, _ => by
    simp [Selector.same, Token.same_of_shape ht]
  | _, _, .filter ht he, hp => by
    simp [Selector.same, Token.same_of_shape ht, Expr.same_of_mirrors he hp.1]

theorem sameSelectors_of_mirror : ∀ {sels sels' : List Selector},
    SelectorsMirror Token.SameShape sels sels' → selectorsProper dialect sels →
      sameSelectors sels sels' = true
  | _, _, .nil, _ => by rw [sameSelectors]
  | _, _, .cons hsel hsels, hp => by
    rw [sameSelectors, Selector.same_of_mirrors hsel hp.1, sameSelectors_of_mirror hsels hp.2]
    rfl

theorem Segment.same_of_mirrors : ∀ {seg seg' : Segment},
    seg.Mirrors Token.SameShape seg' → seg.Proper dialect → seg.same seg' = true
  | _, _, .child ht hsels, hp | _, _, .descendant ht hsels, hp => by
    simp [Segment.same, Token.same_of_shape ht, sameSelectors_of_mirror hsels hp.2]

theorem sameSegments_of_mirror : ∀ {segs segs' : List Segment},
    SegmentsMirror Token.SameShape segs segs' → segmentsProper dialect segs →
      sameSegments segs segs' = true
  | _, _, .nil, _ => by rw [sameSegments]
  | _, _, .cons hseg hsegs, hp => by
    rw [sameSegments, Segment.same_of_mirrors hseg hp.1, sameSegments_of_mirror hsegs hp.2]
    rfl

end

mutual

theorem Expr.bare_of_mirrors {token : Token → Token → Prop} : ∀ {e e' : Expr},
    e.Mirrors token e' → e.bare = e'.bare
  | _, _, .literal _ => rfl
  | _, _, .negation _ he => by rw [Expr.bare, Expr.bare, Expr.bare_of_mirrors he]
  | _, _, .conjunction _ hleft hright | _, _, .disjunction _ hleft hright
  | _, _, .comparison _ hleft hright => by
    rw [Expr.bare, Expr.bare, Expr.bare_of_mirrors hleft, Expr.bare_of_mirrors hright]
  | _, _, .relative _ hsegs | _, _, .absolute _ hsegs => by
    rw [Expr.bare, Expr.bare, bareSegments_of_mirror hsegs]
  | _, _, .call _ hgiven => by rw [Expr.bare, Expr.bare, bareArguments_of_mirror hgiven]

theorem bareArguments_of_mirror {token : Token → Token → Prop} : ∀ {given given' : List Expr},
    ArgumentsMirror token given given' → bareArguments given = bareArguments given'
  | _, _, .nil => rfl
  | _, _, .cons he hgiven => by
    rw [bareArguments, bareArguments, Expr.bare_of_mirrors he, bareArguments_of_mirror hgiven]

theorem Selector.bare_of_mirrors {token : Token → Token → Prop} : ∀ {sel sel' : Selector},
    sel.Mirrors token sel' → sel.bare = sel'.bare
  | _, _, .name _ | _, _, .index _ | _, _, .slice _ | _, _, .wildcard _ => rfl
  | _, _, .filter _ he => by rw [Selector.bare, Selector.bare, Expr.bare_of_mirrors he]

theorem bareSelectors_of_mirror {token : Token → Token → Prop} : ∀ {sels sels' : List Selector},
    SelectorsMirror token sels sels' → bareSelectors sels = bareSelectors sels'
  | _, _, .nil => rfl
  | _, _, .cons hsel hsels => by
    rw [bareSelectors, bareSelectors, Selector.bare_of_mirrors hsel, bareSelectors_of_mirror hsels]

theorem Segment.bare_of_mirrors {token : Token → Token → Prop} : ∀ {seg seg' : Segment},
    seg.Mirrors token seg' → seg.bare = seg'.bare
  | _, _, .child _ hsels | _, _, .descendant _ hsels => by
    rw [Segment.bare, Segment.bare, bareSelectors_of_mirror hsels]

theorem bareSegments_of_mirror {token : Token → Token → Prop} : ∀ {segs segs' : List Segment},
    SegmentsMirror token segs segs' → bareSegments segs = bareSegments segs'
  | _, _, .nil => rfl
  | _, _, .cons hseg hsegs => by
    rw [bareSegments, bareSegments, Segment.bare_of_mirrors hseg, bareSegments_of_mirror hsegs]

end

/-! ### Failures -/

/-- The failures are the same but for the places of their tokens: the same fault at tokens of the
same kind and text, or the same fault of a numeral. -/
inductive CompileError.SameShape : CompileError → CompileError → Prop
  | query {fault : QueryFault} {token? token'? : Option Token} :
      token?.map Token.shape = token'?.map Token.shape →
      SameShape (.query ⟨fault, token?⟩) (.query ⟨fault, token'?⟩)
  | numeral {fault : NumeralFault} : SameShape (.numeral fault) (.numeral fault)
  | openEnded : SameShape .openEnded .openEnded

/-- The messages are the same up to the line and the column that they end with, if they name any. -/
def SameMessage (a b : Text) : Prop :=
  a = b ∨ ∃ (message : Text) (place other : Position),
    a = message ++ ", line " ++ Text.ofNat place.line ++ ", column " ++ Text.ofNat place.column ∧
      b = message ++ ", line " ++ Text.ofNat other.line ++ ", column " ++ Text.ofNat other.column

theorem CompileError.SameShape.message {e e' : CompileError} (h : e.SameShape e') :
    SameMessage e.message e'.message := by
  cases h with
  | @query fault token? token'? hshape =>
    cases token? with
    | none =>
      cases token'? with
      | none => exact .inl rfl
      | some u => cases hshape
    | some t =>
      cases token'? with
      | none => cases hshape
      | some u => exact .inr ⟨fault.message, t.position, u.position, rfl, rfl⟩
  | numeral | openEnded => exact .inl rfl

namespace Parser

variable {t u : Token}

theorem fail_of_shape {α : Type} {related : α → α → Prop} (h : t.SameShape u) (fault : QueryFault) :
    Outcome CompileError.SameShape (fun _ => False) related (Parser.fail fault t)
      (Parser.fail fault u) := .error (.query (congrArg some h))

theorem readNumeral_of_shape {α : Type} (x : Except NumeralFault α) :
    Outcome CompileError.SameShape (fun _ => False) (· = ·) (Parser.readNumeral x)
      (Parser.readNumeral x) := by
  cases x with
  | error fault => exact .error .numeral
  | ok a => exact .ok rfl

theorem index_of_shape (h : t.SameShape u) :
    Outcome CompileError.SameShape (fun _ => False) (· = ·) (index dialect t)
      (index dialect u) := by
  unfold index
  rw [(Prod.mk.inj h).2]
  dsimp only
  split
  · exact fail_of_shape h _
  · refine (readNumeral_of_shape _).bind ?_
    rintro n _ rfl
    split
    · exact .ok rfl
    · exact fail_of_shape h _

theorem number_of_shape (h : t.SameShape u) :
    Outcome CompileError.SameShape (fun _ => False) (· = ·) (number t) (number u) := by
  unfold number
  rw [(Prod.mk.inj h).1, (Prod.mk.inj h).2]
  dsimp only
  split
  · exact fail_of_shape h _
  · split
    · refine (readNumeral_of_shape _).bind ?_
      rintro n _ rfl
      exact .ok rfl
    · refine (readNumeral_of_shape _).bind ?_
      rintro d _ rfl
      exact .ok rfl

/-- On tokens of the same kinds and texts the parser mirrors itself. -/
def Mirror.ofShape (dialect : Dialect) : Mirror dialect dialect where
  token := Token.SameShape
  failure := CompileError.SameShape
  excused := fun _ => False
  kind_eq h := (Prod.mk.inj h).1
  text_eq h := (Prod.mk.inj h).2
  signatures_eq := .refl dialect
  fault _ h := .query (congrArg some h)
  index h _ := index_of_shape h
  number h _ := number_of_shape h

end Parser

/-- From two texts the same query is compiled, or compiling them fails alike. -/
inductive SameOutcome : Except CompileError Query → Except CompileError Query → Prop
  | query {query query' : Query} : query.same query' = true → query.text = query'.text →
      SameOutcome (.ok query) (.ok query')
  | failure {e e' : CompileError} : e.SameShape e' → SameMessage e.message e'.message →
      SameOutcome (.error e) (.error e')

/-- From tokens of the same kinds and texts the same query is compiled. -/
theorem sameOutcome_of_shapes {text text' : Text} {tokens tokens' : List Token}
    (h : Token.ofQuery text = .ok tokens) (h' : Token.ofQuery text' = .ok tokens')
    (hshapes : tokens'.map Token.shape = tokens.map Token.shape) :
    SameOutcome (Query.ofText dialect text) (Query.ofText dialect text') := by
  obtain ⟨ts, final, rfl, hkind, -⟩ := scanned_of_ofQuery h
  obtain ⟨us, final', rfl, -, -⟩ := scanned_of_ofQuery h'
  rw [List.map_append, List.map_append] at hshapes
  obtain ⟨hmap, hfinal⟩ := List.append_inj' hshapes rfl
  have hforall : List.Forall₂ (· = ·) (ts.map Token.shape) (us.map Token.shape) := by
    rw [List.forall₂_eq_eq_eq, hmap]
  rw [List.forall₂_map_left_iff, List.forall₂_map_right_iff] at hforall
  have hsteps := (Parser.Mirror.ofShape dialect).steps_ofTokens hforall
    (List.cons.inj hfinal).1.symm hkind
  rw [← Query.ofText_of_ofQuery h, ← Query.ofText_of_ofQuery h'] at hsteps
  generalize hquery : Query.ofText dialect text = outcome at hsteps ⊢
  generalize Query.ofText dialect text' = outcome' at hsteps ⊢
  cases hsteps with
  | error hsame => exact .failure hsame hsame.message
  | excused hfalse => exact hfalse.elim
  | ok hsegs =>
    have hproper := (Query.wellFormed_of_ofText hquery).proper
    refine .query (sameSegments_of_mirror hsegs hproper) ?_
    rw [← Query.text_bare, bareSegments_of_mirror hsegs, Query.text_bare]

/-- Blanks between the tokens of a text are insignificant: the tokens keep their kinds and texts,
and the same is compiled from them. -/
theorem compile_spread {environment : Environment} {text spaced : Text} {tokens : List Token}
    {blanks : Nat → List CodePoint} (h : Token.ofQuery text = .ok tokens)
    (hspacing : Lexer.Spacing tokens blanks)
    (hspaced : spaced = Text.ofList (Lexer.spread blanks 0 text.toList)) :
    (∃ tokens', Token.ofQuery spaced = .ok tokens' ∧
      tokens'.map Token.shape = tokens.map Token.shape) ∧
    SameOutcome (environment.compile text) (environment.compile spaced) := by
  subst hspaced
  obtain ⟨tokens', htokens', hshapes⟩ := Lexer.ofQuery_spread h hspacing
  exact ⟨⟨tokens', htokens', hshapes⟩, sameOutcome_of_shapes h htokens' hshapes⟩

/-- A line end around an operator and blanks before a bracket. -/
theorem compile_spread_comparison :
    (∃ tokens', Token.ofQuery "$ [?@==\n 1]" = .ok tokens' ∧ tokens'.map Token.shape =
      ([(.root, "$"), (.openSquare, "["), (.filter, "?"), (.current, "@"), (.equals, "=="),
        (.integer, "1"), (.closeSquare, "]"), (.endOfQuery, "")] : List Shape)) ∧
    SameOutcome (Environment.standard.compile "$[?@==1]")
      (Environment.standard.compile "$ [?@==\n 1]") := by
  let blanks (offset : Nat) : List CodePoint :=
    if offset = 1 then [' '] else if offset = 6 then ['\n', ' '] else []
  let text : Text := "$[?@==1]"
  have htokens : Token.ofQuery text = .ok [⟨.root, "$", 0, 1, text⟩, ⟨.openSquare, "[", 1, 2, text⟩,
      ⟨.filter, "?", 2, 3, text⟩, ⟨.current, "@", 3, 4, text⟩, ⟨.equals, "==", 4, 6, text⟩,
        ⟨.integer, "1", 6, 7, text⟩,
      ⟨.closeSquare, "]", 7, 8, text⟩, ⟨.endOfQuery, "", 8, 8, text⟩] := by
    subst text
    cbv
  refine @compile_spread _ _ _ _ blanks htokens ⟨fun offset => ?_, fun offset hne => ?_⟩ (by decide)
  · simp only [blanks]
    split
    · exact List.forall_mem_singleton.2 rfl
    · split
      · exact List.forall_mem_cons.2 ⟨rfl, List.forall_mem_singleton.2 rfl⟩
      · exact List.forall_mem_nil _
  · by_cases hroot : offset = 1
    · exact ⟨⟨.root, "$", 0, 1, text⟩, ⟨.openSquare, "[", 1, 2, text⟩,
      ⟨[], _, rfl⟩, by decide, by decide,
        hroot.ge, hroot.le⟩
    · by_cases hequals : offset = 6
      · exact ⟨⟨.equals, "==", 4, 6, text⟩, ⟨.integer, "1", 6, 7, text⟩,
          ⟨[⟨.root, "$", 0, 1, text⟩, ⟨.openSquare, "[", 1, 2, text⟩, ⟨.filter, "?", 2, 3, text⟩,
            ⟨.current, "@", 3, 4, text⟩], _, rfl⟩, by decide, by decide, hequals.ge, hequals.le⟩
      · exact absurd ((if_neg hroot).trans (if_neg hequals)) hne

end JsonPath
