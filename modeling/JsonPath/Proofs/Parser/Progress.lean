import Mathlib
import JsonPath.Proofs.Parser.Trace

/-!
# The parser makes progress

Each part of the parser at work does what the part of the same name returns, and a limit of three
for each token ahead is never reached. What keeps the loops from spinning, though the end token is
read as often as it is asked for, is that a part which succeeds has taken a token that is no end
token, the next one to begin with. The induction goes as the parser recurs: by the number of tokens
ahead, and among parts that begin at the same token by which of them calls the other.
-/

namespace JsonPath

namespace Parser

namespace Reading

variable {dialect : Dialect} {s : Stream}

theorem does_optionalIndex :
    (optionalIndex dialect).Does s (Parser.optionalIndex dialect s) := by
  unfold optionalIndex Parser.optionalIndex
  refine .peek ?_
  by_cases h : s.peek.kind = .integer
  · rw [if_pos h, dif_pos h]
    exact .take (by simp [h]) (.check fun _ => does_pure)
  · rw [if_neg h, dif_neg h]
    exact does_pure

theorem does_sliceRest {token : Token} {start? : Option Int} :
    (sliceRest dialect token start?).Does s (Parser.sliceRest dialect token start? s) := by
  unfold sliceRest Parser.sliceRest
  refine does_optionalIndex.bind ?_
  rintro ⟨stop?, s₁, _⟩ log _
  refine .peek ?_
  by_cases h : s₁.peek.kind = .colon
  · simp only [if_pos h, dif_pos h]
    refine .take (by simp [h]) ?_
    refine does_optionalIndex.bind ?_
    rintro ⟨step?, s₂, _⟩ _ _
    exact does_pure
  · simp only [if_neg h, dif_neg h]
    exact does_pure

mutual

theorem does_segments (s : Stream) {limit : Nat} (hlimit : 3 * s.size + 2 < limit) :
    (segments dialect limit).Does s (Parser.segments dialect s) := by
  obtain ⟨limit, rfl⟩ : ∃ n, limit = n + 1 := ⟨limit - 1, by omega⟩
  rw [segments, Parser.segments]
  split
  case h_1 h | h_2 h =>
    have hkind : s.peek.kind ≠ .endOfQuery := by simp [h]
    have hlt := Stream.size_advance_lt hkind
    refine .stream ?_
    simp only [h]
    refine .take hkind ((does_dotted _ _ (by omega)).bind ?_)
    rintro ⟨first, s₁, _⟩ log hlog
    refine .passed ⟨hlog.follows.past (Stream.advance_past hkind), hkind⟩ ?_
    refine (does_segments s₁ (by omega)).bind ?_
    rintro ⟨more, s₂, _⟩ _ _
    exact does_pure
  case h_3 h =>
    refine .stream ?_
    simp only [h]
    refine .peek ((does_bracketed s h (by omega)).bind ?_)
    rintro ⟨first, s₁, hlt⟩ log hlog
    have hsince := hlog.past hlt
    refine .passed hsince ?_
    refine (does_segments s₁ (by omega)).bind ?_
    rintro ⟨more, s₂, _⟩ _ _
    exact does_pure
  case h_4 =>
    refine .stream ?_
    split
    case h_4 => exact does_pure
    all_goals simp_all
termination_by (s.size, 2)
decreasing_by
  all_goals first
    | (apply Prod.Lex.left; omega)
    | exact Prod.Lex.right _ (by decide)

theorem does_dotted (dots : Token) (s : Stream) {limit : Nat} (hlimit : 3 * s.size + 1 < limit) :
    (dotted dialect dots limit).Does s (Parser.dotted dialect dots s) := by
  obtain ⟨limit, rfl⟩ : ∃ n, limit = n + 1 := ⟨limit - 1, by omega⟩
  rw [dotted, Parser.dotted]
  split
  case h_1 h | h_2 h =>
    refine .peek ?_
    simp only [h]
    exact .take (by simp [h]) does_pure
  case h_3 h =>
    refine .peek ?_
    simp only [h]
    exact does_bracketed s h (by omega)
  case h_4 =>
    refine .peek ?_
    split
    case h_4 => exact does_error
    all_goals simp_all
termination_by (s.size, 1)
decreasing_by exact Prod.Lex.right _ (by decide)

theorem does_bracketed (s : Stream) (h : s.peek.kind = .openSquare) {limit : Nat}
    (hlimit : 3 * s.size < limit) :
    (bracketed dialect limit).Does s (Parser.bracketed dialect s h) := by
  have hlt := Stream.size_advance_lt (s := s) (by simp [h])
  obtain ⟨limit, rfl⟩ : ∃ n, limit = n + 1 := ⟨limit - 1, by omega⟩
  rw [bracketed, Parser.bracketed]
  refine .take (by simp [h]) (.peek ?_)
  by_cases hclose : s.advance.peek.kind = .closeSquare
  · rw [if_pos hclose, if_pos hclose]
    exact does_error
  · rw [if_neg hclose, if_neg hclose]
    exact (does_selectors s.advance (by omega)).last fun _ => ⟨_, rfl⟩
termination_by (s.size, 0)
decreasing_by apply Prod.Lex.left; assumption

theorem does_selectors (s : Stream) {limit : Nat} (hlimit : 3 * s.size + 1 < limit) :
    (selectors dialect limit).Does s (Parser.selectors dialect s) := by
  obtain ⟨limit, rfl⟩ : ∃ n, limit = n + 1 := ⟨limit - 1, by omega⟩
  rw [selectors, Parser.selectors]
  refine .stream ((does_selector s (by omega)).bind ?_)
  rintro ⟨first, s₁, hlt⟩ log hlog
  -- the selector has taken a token, so the pass did not begin at an end token
  have hsince := hlog.past hlt
  refine .peek ?_
  dsimp only at hlt ⊢
  split
  case h_1 =>
    split
    case h_1 => exact does_error
    all_goals simp_all
  case h_2 hclose =>
    split
    case h_2 => exact .passed hsince (.take (by simp [hclose]) does_pure)
    all_goals simp_all
  case h_3 hend hclose =>
    split
    case h_3 =>
      by_cases hcomma : s₁.peek.kind = .comma
      · have hlt₁ := Stream.size_advance_lt (s := s₁) (by simp [hcomma])
        rw [dif_pos hcomma]
        refine .comma hsince hcomma ?_
        refine (does_selectors s₁.advance (by omega)).bind ?_
        rintro ⟨more, s₂, _⟩ _ _
        exact does_pure
      · rw [dif_neg hcomma]
        exact does_mismatch hcomma
    all_goals simp_all
termination_by (s.size, 1)
decreasing_by
  · exact Prod.Lex.right _ (by decide)
  · apply Prod.Lex.left
    omega

theorem does_selector (s : Stream) {limit : Nat} (hlimit : 3 * s.size < limit) :
    (selector dialect limit).Does s (Parser.selector dialect s) := by
  obtain ⟨limit, rfl⟩ : ∃ n, limit = n + 1 := ⟨limit - 1, by omega⟩
  rw [selector, Parser.selector]
  split
  case h_1 h =>
    refine .peek ?_
    simp only [h]
    refine .take (by simp [h]) (.check fun n => .peek ?_)
    by_cases hcolon : s.advance.peek.kind = .colon
    · rw [if_pos hcolon, dif_pos hcolon]
      exact .take (by simp [hcolon]) (does_sliceRest.last fun _ => ⟨_, rfl⟩)
    · rw [if_neg hcolon, dif_neg hcolon]
      exact does_pure
  case h_2 h | h_3 h =>
    refine .peek ?_
    simp only [h]
    exact .take (by simp [h]) (.check fun _ => does_pure)
  case h_4 h =>
    refine .peek ?_
    simp only [h]
    exact .take (by simp [h]) (does_sliceRest.last fun _ => ⟨_, rfl⟩)
  case h_5 h =>
    refine .peek ?_
    simp only [h]
    exact .take (by simp [h]) does_pure
  case h_6 h =>
    have hlt := Stream.size_advance_lt (s := s) (by simp [h])
    refine .peek ?_
    simp only [h]
    refine .take (by simp [h]) ((does_expression .lowest s.advance (by omega)).bind ?_)
    rintro ⟨e, s₁, _⟩ _ _
    exact .check fun _ => does_pure
  case h_7 h =>
    refine .peek ?_
    simp only [h]
    exact does_error
  case h_8 =>
    refine .peek ?_
    split
    case h_8 => exact does_error
    all_goals simp_all
termination_by (s.size, 0)
decreasing_by apply Prod.Lex.left; assumption

theorem does_expression (level : Level) (s : Stream) {limit : Nat}
    (hlimit : 3 * s.size + 1 < limit) :
    (expression dialect level limit).Does s (Parser.expression dialect level s) := by
  obtain ⟨limit, rfl⟩ : ∃ n, limit = n + 1 := ⟨limit - 1, by omega⟩
  rw [expression, Parser.expression]
  refine Opens.enclosed (.peek ((opens_operand s (by omega)).bind ?_))
  rintro ⟨first, s₁, hlt⟩
  exact (does_operations level _ first s₁ (by omega)).last fun _ => ⟨_, rfl⟩
termination_by (s.size, 1)
decreasing_by
  · exact Prod.Lex.right _ (by decide)
  · apply Prod.Lex.left
    assumption

theorem does_operations (level : Level) (grouped : Bool) (left : Expr) (s : Stream) {limit : Nat}
    (hlimit : 3 * s.size < limit) :
    (operations dialect level grouped left limit).Does s
      (Parser.operations dialect level grouped left s) := by
  obtain ⟨limit, rfl⟩ : ∃ n, limit = n + 1 := ⟨limit - 1, by omega⟩
  rw [operations, Parser.operations]
  refine .stream ?_
  by_cases h : binds s.peek.kind level = true
  · have hkind := ne_endOfQuery_of_binds h
    have hlt := Stream.size_advance_lt hkind
    rw [if_pos h, dif_pos h]
    refine .take hkind ?_
    by_cases hgrouped : ((comparison? s.peek.kind).isSome && grouped) = true
    · simp only [if_pos hgrouped]
      exact does_error
    · simp only [if_neg hgrouped]
      refine (does_operation left s.peek s.advance (by omega)).bind ?_
      rintro ⟨next, s₁, hlt₁⟩ log hlog
      refine .passed ⟨hlog.follows.past (Stream.advance_past hkind), hkind⟩ ?_
      exact (does_operations level false next s₁ (by omega)).last fun _ => ⟨_, rfl⟩
  · rw [if_neg h, dif_neg h]
    exact does_pure
termination_by (s.size, 0)
decreasing_by all_goals (apply Prod.Lex.left; omega)

theorem does_operation (left : Expr) (operator : Token) (s : Stream) {limit : Nat}
    (hlimit : 3 * s.size + 2 < limit) :
    (operation dialect left operator limit).Does s (Parser.operation dialect left operator s) := by
  obtain ⟨limit, rfl⟩ : ∃ n, limit = n + 1 := ⟨limit - 1, by omega⟩
  rw [operation, Parser.operation]
  cases hcomparison : comparison? operator.kind with
  | some comparison =>
    refine .peek ?_
    by_cases hgroup : s.peek.kind = .openParen
    · simp only [if_pos hgroup]
      exact does_error
    · simp only [if_neg hgroup]
      refine (does_expression .relation s (by omega)).bind ?_
      rintro ⟨right, s₁, _⟩ _ _
      exact .check fun _ => .check fun _ => does_pure
  | none =>
    refine (does_expression _ s (by omega)).bind ?_
    rintro ⟨right, s₁, _⟩ _ _
    exact .check fun _ => .check fun _ => does_pure
termination_by (s.size, 2)
decreasing_by all_goals exact Prod.Lex.right _ (by decide)

theorem opens_operand (s : Stream) {limit : Nat} (hlimit : 3 * s.size < limit) :
    (operand dialect limit).Opens s (Parser.operand dialect s) := by
  obtain ⟨limit, rfl⟩ : ∃ n, limit = n + 1 := ⟨limit - 1, by omega⟩
  rw [operand, Parser.operand]
  split
  case h_1 h | h_2 h | h_3 h | h_4 h =>
    refine .take (by simp [h]) ?_
    simp only [h]
    exact .check fun _ => does_pure
  case h_5 h | h_6 h | h_7 h =>
    refine .take (by simp [h]) ?_
    simp only [h]
    exact does_pure
  case h_8 h =>
    have hlt := Stream.size_advance_lt (s := s) (by simp [h])
    refine .take (by simp [h]) ?_
    simp only [h]
    refine (does_expression .unary s.advance (by omega)).bind ?_
    rintro ⟨item, s₁, _⟩ _ _
    exact .check fun _ => does_pure
  case h_9 h =>
    have hlt := Stream.size_advance_lt (s := s) (by simp [h])
    refine .take (by simp [h]) ?_
    simp only [h]
    refine (does_expression .lowest s.advance (by omega)).bind ?_
    rintro ⟨item, s₁, _⟩ _ _
    by_cases hclose : s₁.peek.kind = .closeParen
    · simp only [dif_pos hclose]
      exact .expect hclose (.take (by simp [hclose]) (.check fun _ => does_pure))
    · simp only [dif_neg hclose]
      exact does_mismatch hclose
  case h_10 h | h_11 h =>
    have hlt := Stream.size_advance_lt (s := s) (by simp [h])
    refine .take (by simp [h]) ?_
    simp only [h]
    refine (does_segments s.advance (by omega)).bind ?_
    rintro ⟨item, s₁, _⟩ _ _
    exact does_pure
  case h_12 h =>
    have hlt := Stream.size_advance_lt (s := s) (by simp [h])
    refine .take (by simp [h]) ?_
    simp only [h]
    exact (does_call _ s.advance (by omega)).last fun _ => ⟨_, rfl⟩
  -- the one place where an end token is taken
  case h_13 h => exact opens_end h (by simp only [h]; rfl)
  case h_14 =>
    refine .take (by assumption) ?_
    split
    case h_14 => exact does_error
    all_goals simp_all
termination_by (s.size, 0)
decreasing_by all_goals (apply Prod.Lex.left; assumption)

theorem does_call (function : Token) (s : Stream) {limit : Nat} (hlimit : 3 * s.size < limit) :
    (call dialect function limit).Does s (Parser.call dialect function s) := by
  obtain ⟨limit, rfl⟩ : ∃ n, limit = n + 1 := ⟨limit - 1, by omega⟩
  rw [call, Parser.call]
  by_cases h : s.peek.kind = .openParen
  · have hkind : s.peek.kind ≠ .endOfQuery := by simp [h]
    have hlt := Stream.size_advance_lt hkind
    rw [dif_pos h]
    refine .expect h (.take hkind (.peek ?_))
    by_cases hclose : s.advance.peek.kind = .closeParen
    · simp only [if_pos hclose, dif_pos hclose]
      exact .take (by simp [hclose]) (.check fun _ => does_pure)
    · simp only [if_neg hclose, dif_neg hclose]
      refine (does_arguments s.advance (by omega)).bind ?_
      rintro ⟨given, s₁, _⟩ _ _
      exact .check fun _ => does_pure
  · rw [dif_neg h]
    exact does_mismatch h
termination_by (s.size, 0)
decreasing_by apply Prod.Lex.left; assumption

theorem does_arguments (s : Stream) {limit : Nat} (hlimit : 3 * s.size + 2 < limit) :
    (arguments dialect limit).Does s (Parser.arguments dialect s) := by
  obtain ⟨limit, rfl⟩ : ∃ n, limit = n + 1 := ⟨limit - 1, by omega⟩
  rw [arguments, Parser.arguments]
  refine .stream ((does_expression .lowest s (by omega)).bind ?_)
  rintro ⟨first, s₁, hlt⟩ log hlog
  have hsince := hlog.past hlt
  refine .peek ?_
  dsimp only at hlt ⊢
  by_cases hclose : s₁.peek.kind = .closeParen
  · rw [if_pos hclose, dif_pos hclose]
    exact .passed hsince (.take (by simp [hclose]) does_pure)
  · rw [if_neg hclose, dif_neg hclose]
    by_cases hcomma : s₁.peek.kind = .comma
    · have hlt₁ := Stream.size_advance_lt (s := s₁) (by simp [hcomma])
      rw [dif_pos hcomma]
      refine .comma hsince hcomma ?_
      refine (does_arguments s₁.advance (by omega)).bind ?_
      rintro ⟨more, s₂, _⟩ _ _
      exact does_pure
    · rw [dif_neg hcomma]
      exact does_mismatch hcomma
termination_by (s.size, 2)
decreasing_by
  · exact Prod.Lex.right _ (by decide)
  · apply Prod.Lex.left
    omega

end

/-- The parser of whole queries at work does what the parser of whole queries returns, and ends with
a query only at an end token. -/
theorem does_query (dialect : Dialect) (s : Stream) {limit : Nat} (hlimit : 3 * s.size ≤ limit) :
    ∃ result : Except CompileError (Parsed (s.size + 1) Query),
      (query dialect limit).Does s result ∧ Parser.query dialect s = result.map Parsed.item ∧
        ∀ parsed, result = .ok parsed → parsed.rest.peek.kind = .endOfQuery := by
  unfold query Parser.query
  by_cases hroot : s.peek.kind = .root
  · have hkind : s.peek.kind ≠ .endOfQuery := by simp [hroot]
    have hlt := Stream.size_advance_lt hkind
    refine ⟨Parser.segments dialect s.advance >>= fun path =>
      if path.rest.peek.kind = .endOfQuery then
        .ok ⟨path.item, path.rest, by have := path.shorter; omega⟩
      else fail (.unexpected path.rest.peek.text) path.rest.peek, ?_, ?_, fun parsed h => ?_⟩
    · refine .expect hroot (.take hkind ?_)
      refine (does_segments _ (by omega)).bind fun path _ _ => .peek ?_
      by_cases hend : path.rest.peek.kind = .endOfQuery
      · rw [if_pos hend, if_pos hend]
        exact does_pure
      · rw [if_neg hend, if_neg hend]
        exact does_error
    · rw [Stream.expect_eq_ok_iff.mpr hroot]
      cases Parser.segments dialect s.advance with
      | error error => rfl
      | ok path =>
        change ite _ _ _ = Except.map _ (ite _ _ _)
        split <;> rfl
    · obtain ⟨path, -, h⟩ := bind_eq_ok_iff.mp h
      split at h
      · next hend =>
        cases h
        exact hend
      · cases h
  · refine ⟨_, does_mismatch hroot, ?_, nofun⟩
    rw [Stream.expect, if_neg hroot]
    rfl

/-- A tape on which the parser has gone on from a stream without ever going back. Each token was
taken where it stood; the calls of the parser of expressions are each past the beginnings of the
calls around them, and the passes that were completed are past their own beginnings, where there was
no end token. -/
structure AdvancedFrom (start : Stream) (tape : Tape) : Prop where
  forward : Forward (start :: (tape.log.map Entry.stream ++ [tape.stream]))
  tokens : ∀ token s, ⟨.took token, s⟩ ∈ tape.log → token = s.peek
  nested : ∀ around s, ⟨.entered around, s⟩ ∈ tape.log → ∀ begun ∈ around, s.Past begun
  passes : ∀ loop since s, ⟨.passed loop since, s⟩ ∈ tape.log →
    s.Past since ∧ since.peek.kind ≠ .endOfQuery

theorem AdvancedFrom.of_halts {tape : Tape} (h : Halts s tape.log tape.stream) :
    AdvancedFrom s tape where
  forward := h.forward
  tokens _ _ hmem := h.progresses _ hmem
  nested _ _ hmem := h.progresses _ hmem
  passes _ _ _ hmem := h.progresses _ hmem

/-- **The parser ends on every token sequence.** Its calls and the rounds of its loops, over any
tokens that an end token closes, go no deeper than three times the number of those tokens, so that
with any higher limit they come to one and the same end, which is the query or the error that the
tokens have. On the way the position never moves back, a call of the parser of expressions is at
least one token past the beginning of each call around it, and each completed pass through a loop
has taken at least one token and was not begun at an end token. A query is returned at the first end
token, when the tokens before it have been taken one by one. -/
theorem query_ends (dialect : Dialect) (tokens : List Token) {final : Token}
    (hfinal : final.kind = .endOfQuery) :
    ∃ tape, (∀ limit, 3 * tokens.length ≤ limit →
        (query dialect limit).outcome ⟨⟨tokens, final, hfinal⟩, [], []⟩ =
          some (Query.ofTokens dialect (tokens ++ [final]), tape)) ∧
      AdvancedFrom ⟨tokens, final, hfinal⟩ tape ∧
      ∀ q, Query.ofTokens dialect (tokens ++ [final]) = .ok q →
        tape.stream.peek.kind = .endOfQuery ∧
        (∀ token ∈ taken tape.log, token.kind ≠ .endOfQuery) ∧
        ∃ rest, tokens ++ [final] = taken tape.log ++ tape.stream.peek :: rest := by
  have hquery : Query.ofTokens dialect (tokens ++ [final]) =
      Parser.query dialect ⟨tokens, final, hfinal⟩ := by
    rw [Query.ofTokens, Stream.ofTokens?_append hfinal]
  obtain ⟨result, hdoes, hresult, hend⟩ :=
    does_query dialect ⟨tokens, final, hfinal⟩ (Nat.le_refl (3 * tokens.length))
  rw [hquery, hresult]
  have hrun := hdoes [] [] nofun
  cases result with
  | error error =>
    obtain ⟨log, after, calls, hlog, hrun⟩ := hrun
    exact ⟨_, fun _ hlimit => query_within hlimit _ _ hrun, .of_halts hlog, nofun⟩
  | ok parsed =>
    obtain ⟨log, hlog, hrun⟩ := hrun
    refine ⟨_, fun _ hlimit => query_within hlimit _ _ hrun, .of_halts (.leads hlog),
      fun _ _ => ⟨hend parsed rfl, hlog.kind_ne, ?_⟩⟩
    obtain ⟨rest, hrest⟩ := parsed.rest.exists_peek_cons
    refine ⟨rest, ?_⟩
    calc tokens ++ [final]
        = taken log ++ parsed.rest.ahead ++ [parsed.rest.final] :=
          congrArg (fun s => s.ahead ++ [s.final]) hlog.eq_prepend
      _ = taken log ++ parsed.rest.peek :: rest := by rw [List.append_assoc, hrest]

/-- An end token among the others, as no text has it: the query ends there, and what comes after is
not read. -/
theorem query_ends_early :
    let text : Text := "$.a."
    let tokens : List Token :=
      [⟨.root, "$", 0, 1, text⟩, ⟨.dot, ".", 1, 2, text⟩, ⟨.name, "a", 2, 3, text⟩,
      ⟨.endOfQuery, "", 3, 3, text⟩, ⟨.dot, ".", 3, 4, text⟩]
    let final : Token := ⟨.endOfQuery, "", 4, 4, text⟩
    final.kind = .endOfQuery ∧
    ∃ tape, (∀ limit, 15 ≤ limit →
        (query ⟨0, 9, fun _ => none⟩ limit).outcome ⟨⟨tokens, final, rfl⟩, [], []⟩ =
          some (.ok [.child ⟨.dot, ".", 1, 2, text⟩ [.name ⟨.name, "a", 2, 3, text⟩ "a"]], tape)) ∧
      AdvancedFrom ⟨tokens, final, rfl⟩ tape ∧
      tape.stream.peek.kind = .endOfQuery ∧
      (∀ token ∈ taken tape.log, token.kind ≠ .endOfQuery) ∧
      ∃ rest, tokens ++ [final] = taken tape.log ++ tape.stream.peek :: rest := by
  intro text tokens final
  have hfinal : final.kind = .endOfQuery := rfl
  obtain ⟨tape, hrun, hadvanced, hend⟩ := query_ends ⟨0, 9, fun _ => none⟩ tokens hfinal
  have hquery : Query.ofTokens ⟨0, 9, fun _ => none⟩ (tokens ++ [final]) =
      .ok [.child ⟨.dot, ".", 1, 2, text⟩ [.name ⟨.name, "a", 2, 3, text⟩ "a"]] := by
    subst text
    cbv
  rw [hquery] at hrun
  exact ⟨hfinal, tape, hrun, hadvanced, hend _ hquery⟩

end Reading

end Parser

end JsonPath
