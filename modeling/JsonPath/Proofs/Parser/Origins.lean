import JsonPath.Proofs.Parser.Failures
import JsonPath.Proofs.Text.Position
import JsonPath.Proofs.Token.Spans

/-!
# Where errors point

An error is found at a token, and the token stands in the query. While the query is split into
tokens it is a token of the fault itself, which starts where the text does that is still to be read,
be it the end of the query. After that all tokens are there, and an error of the parser is at one of
them: no token is made but by the lexer, neither for the tree of a query nor for an error.
-/

namespace JsonPath

/-! ### Errors of the lexer -/

/-- The error has a token, which stands in the query. -/
def QueryError.PointsInto (query : Text) (error : QueryError) : Prop :=
  ∃ token, error.token? = some token ∧ token.StandsIn query

namespace Lexer

variable {query : Text} {cs : List CodePoint} {dots? : Option TokenKind} {offset : Nat}
  {error : QueryError}

theorem IsRest.pointsInto_faultAt (h : IsRest query offset cs) (fault : QueryFault) :
    (faultAt query fault offset cs).PointsInto query := by
  refine ⟨_, rfl, rfl, h.le_length, ?_⟩
  rw [h.extract_eq 1]
  exact Text.toList_ofList.symm

theorem eq_error_of_bind_pure {α β : Type} {x : Except QueryError α} {f : α → β}
    (h : (x >>= fun a => pure (f a)) = .error error) : x = .error error := by
  cases x with
  | error =>
    cases h
    rfl
  | ok a => cases h

theorem pointsInto_of_tokensFrom (h : tokensFrom query dots? offset cs = .error error)
    (hrest : IsRest query offset cs) : error.PointsInto query := by
  fun_induction tokensFrom query dots? offset cs with
  | case1 offset cs dots fault =>
    cases h
    exact hrest.pointsInto_faultAt fault
  | case2 offset cs dots _ ih => exact ih h hrest
  | case3 offset cs dots lexeme hlexeme _ ih =>
    exact ih (eq_error_of_bind_pure h) (hrest.advance (within_of_shorthand? hlexeme).2)
  | case4 => cases h
  | case5 offset cs =>
    cases h
    exact hrest.pointsInto_faultAt _
  | case6 | case7 =>
    cases h
    exact hrest.skip_blanks.pointsInto_faultAt _
  | case8 offset cs _ _ rest start c hc lexeme hlexeme _ dots? =>
    rename_i ih
    have hstart := hrest.skip_blanks
    exact ih (eq_error_of_bind_pure h) (hstart.advance (within_of_lexeme? hlexeme).2)

end Lexer

theorem pointsInto_of_ofQuery {text : Text} {error : QueryError} (hne : text ≠ "")
    (h : Token.ofQuery text = .error error) : error.PointsInto text := by
  have hrest := isRest_query text
  unfold Token.ofQuery at h
  dsimp only at h
  split at h
  next hnil => exact absurd (Text.toList_eq_nil_iff.1 hnil) hne
  · split at h
    · cases h
      exact hrest.pointsInto_faultAt _
    · exact Lexer.pointsInto_of_tokensFrom h hrest

/-! ### Errors of the parser -/

/-- If the query is at fault, the error is at one of the tokens. -/
def CompileError.IsAtOneOf (tokens : List Token) (e : CompileError) : Prop :=
  ∀ error, e = .query error → ∃ token ∈ tokens, error.token? = some token

namespace Parser

variable {dialect : Dialect} {tokens : List Token} {t : Token}

theorem isAtOneOf_fault (ht : t ∈ tokens) (fault : QueryFault) :
    (CompileError.query ⟨fault, some t⟩).IsAtOneOf tokens := by
  rintro _ ⟨⟩
  exact ⟨t, ht, rfl⟩

/-- A numeral that cannot be read is no fault of the query. -/
theorem outcome_readNumeral {α : Type} (reading : Except NumeralFault α) :
    Outcome (fun e _ => e.IsAtOneOf tokens) (fun _ => False) (· = ·) (readNumeral reading)
      (readNumeral reading) := by
  refine .self fun e he error herror => ?_
  subst herror
  cases reading <;> cases he

/-- The parser mirrors itself, and its errors are at tokens that were given to it. -/
def Mirror.given (dialect : Dialect) (tokens : List Token) : Mirror dialect dialect where
  token t u := t = u ∧ t ∈ tokens
  failure e _ := e.IsAtOneOf tokens
  excused _ := False
  kind_eq h := congrArg Token.kind h.1
  text_eq h := congrArg Token.text h.1
  signatures_eq := .refl dialect
  fault fault h := isAtOneOf_fault h.2 fault
  index := by
    rintro t _ ⟨rfl, ht⟩ -
    unfold Parser.index
    dsimp only
    split
    · exact .error (isAtOneOf_fault ht _)
    · refine (outcome_readNumeral _).bind ?_
      rintro n _ rfl
      split
      · exact .ok rfl
      · exact .error (isAtOneOf_fault ht _)
  number := by
    rintro t _ ⟨rfl, ht⟩ -
    unfold Parser.number
    dsimp only
    split
    · exact .error (isAtOneOf_fault ht _)
    · split
      all_goals
        refine (outcome_readNumeral _).bind ?_
        rintro n _ rfl
        exact .ok rfl

end Parser

theorem isAtOneOf_of_ofQuery {dialect : Dialect} {text : Text} {tokens : List Token}
    {e : CompileError} (htokens : Token.ofQuery text = .ok tokens)
    (h : Query.ofText dialect text = .error e) : e.IsAtOneOf tokens := by
  let mirror := Parser.Mirror.given dialect tokens
  have hsteps := mirror.steps_ofText htokens fun t ht => ⟨rfl, ht⟩
  rw [h] at hsteps
  cases hsteps with
  | excused hfalse => exact hfalse.elim
  | error hat => exact hat

/-! ### Queries -/

/-- Where an error is found, and that it is one of the query's own tokens as soon as there are
any. -/
theorem pointsInto_of_ofText {dialect : Dialect} {text : Text} {error : QueryError}
    (hne : text ≠ "") (h : Query.ofText dialect text = .error (.query error)) :
    ∃ token, error.token? = some token ∧ token.StandsIn text ∧
      ∀ tokens, Token.ofQuery text = .ok tokens → token ∈ tokens := by
  cases htokens : Token.ofQuery text with
  | error e =>
    unfold Query.ofText at h
    rw [htokens] at h
    cases h
    obtain ⟨token, htoken, hstands⟩ := pointsInto_of_ofQuery hne htokens
    exact ⟨token, htoken, hstands, nofun⟩
  | ok tokens =>
    obtain ⟨token, hmem, htoken⟩ := isAtOneOf_of_ofQuery htokens h error rfl
    obtain ⟨-, htokenizes⟩ := tokenizes_of_ofQuery htokens
    refine ⟨token, htoken, (htokenizes.standsIn (isRest_query text) token hmem).1, ?_⟩
    rintro _ ⟨⟩
    exact hmem

/-- **Errors point into the query.** Unless the text is empty, the error of a text that is at fault
has a token, be it found in the syntax, the types, the names or the indices. The token knows the
text, starts within it and is what the text has in its span, as far as the text goes, but for the
quotes around a string literal. The message ends in the line and the column of that start, and no
other offset has as many line feeds before it and as many characters after the last of them. -/
theorem compile_error_pointsInto {environment : Environment} {text : Text} {error : QueryError}
    (hne : text ≠ "") (h : environment.compile text = .error (.query error)) :
    ∃ token, error.token? = some token ∧ token.query = text ∧
      (∀ tokens, Token.ofQuery text = .ok tokens → token ∈ tokens) ∧
      token.start ≤ text.length ∧
      text.toList.extract token.start token.stop = token.written ∧
      let place := token.position
      error.message = error.fault.message ++ ", line " ++ Text.ofNat place.line ++ ", column " ++
        Text.ofNat place.column ∧
      place.IsAt text.toList token.start ∧
      ∀ offset, place.IsAt text.toList offset → offset = token.start := by
  obtain ⟨token, htoken, hstands, hmem⟩ := pointsInto_of_ofText hne h
  have hplace : token.position.IsAt text.toList token.start := by
    unfold Token.position
    rw [hstands.query_eq]
    exact Position.isAt_ofOffset hstands.start_le
  refine ⟨token, htoken, hstands.query_eq, hmem, ?_, hstands.extract_eq, ?_, hplace,
    fun _ h => h.unique hplace⟩
  · rw [← Text.length_toList]
    exact hstands.start_le
  · unfold QueryError.message
    rw [htoken]

/-- A name that is missing where the text ends is missed there, behind the last dot. -/
theorem compile_error_pointsInto_end :
    let text : Text := "$[?@.a ==\n@."
    let token : Token := ⟨.error, "", 12, 13, text⟩
    let error : QueryError := ⟨.expectedNameAfter ".", some token⟩
    text ≠ "" ∧ Environment.standard.compile text = .error (.query error) ∧
      token.query = text ∧
      error.message = "expected a name or '*' after '.', line 2, column 3" ∧
      ∀ offset, Position.IsAt ⟨2, 3⟩ text.toList offset → offset = 12 := by
  intro text token error
  have hne : text ≠ "" := by decide
  have herror : Environment.standard.compile text = .error (.query error) := by
    subst text token error
    cbv
  obtain ⟨_, htoken, hquery, -, -, -, hmessage, -, hunique⟩ := compile_error_pointsInto hne herror
  cases htoken
  have hplace : token.position = ⟨2, 3⟩ := by decide
  rw [hplace] at hunique hmessage
  exact ⟨hne, herror, hquery, hmessage.trans (by decide), hunique⟩

end JsonPath
