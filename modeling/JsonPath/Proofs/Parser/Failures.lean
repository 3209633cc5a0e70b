import JsonPath.Environment
import JsonPath.Proofs.Canonical.RoundTrip
import JsonPath.Proofs.Parser.Mirroring

/-!
# How compiling fails

A text is compiled to a query, or it is at fault: in its syntax, its types, its names or its
indices. One other failure is left. An integer of more digits than integers are read with is no
fault of the query, but of the numeral. Up to that length, an index that the bounds do not allow is
a fault of indices, wherever it stands.
-/

namespace JsonPath

/-! ### The integers of a query -/

mutual

/-- The integers that stand as indices or in slices, in queries within filters as well. -/
def Expr.indices : Expr → List Int
  | .literal _ _ => []
  | .negation _ operand => operand.indices
  | .conjunction _ left right => left.indices ++ right.indices
  | .disjunction _ left right => left.indices ++ right.indices
  | .comparison _ left _ right => left.indices ++ right.indices
  | .relative _ segments => segmentsIndices segments
  | .absolute _ segments => segmentsIndices segments
  | .call _ _ arguments => argumentsIndices arguments

def argumentsIndices : List Expr → List Int
  | [] => []
  | argument :: rest => argument.indices ++ argumentsIndices rest

def Selector.indices : Selector → List Int
  | .name _ _ => []
  | .index _ index => [index]
  | .wildcard _ => []
  | .slice _ start? stop? step? => start?.toList ++ stop?.toList ++ step?.toList
  | .filter _ expression => expression.indices

def selectorsIndices : List Selector → List Int
  | [] => []
  | selector :: rest => selector.indices ++ selectorsIndices rest

def Segment.indices : Segment → List Int
  | .child _ selectors => selectorsIndices selectors
  | .descendant _ selectors => selectorsIndices selectors

def segmentsIndices : List Segment → List Int
  | [] => []
  | segment :: rest => segment.indices ++ segmentsIndices rest

end

/-- The integers that stand as indices or in slices anywhere in the query. -/
def Query.indices (query : Query) : List Int := segmentsIndices query

variable {dialect : Dialect}

mutual

theorem Expr.allows_indices : ∀ e : Expr, e.Proper dialect → ∀ i ∈ e.indices, dialect.Allows i
  | .literal _ _, _ => List.forall_mem_nil _
  | .negation _ operand, h => Expr.allows_indices operand h.1
  | .conjunction _ left right, h | .disjunction _ left right, h =>
    List.forall_mem_append.2 ⟨Expr.allows_indices left h.1, Expr.allows_indices right h.2.1⟩
  | .comparison _ left _ right, h =>
    List.forall_mem_append.2 ⟨Expr.allows_indices left h.1, Expr.allows_indices right h.2⟩
  | .relative _ segments, h | .absolute _ segments, h => segments_allow_indices segments h
  | .call _ _ arguments, h => arguments_allow_indices arguments h.2

theorem arguments_allow_indices : ∀ arguments : List Expr, argumentsProper dialect arguments →
    ∀ i ∈ argumentsIndices arguments, dialect.Allows i
  | [], _ => List.forall_mem_nil _
  | argument :: rest, h =>
    List.forall_mem_append.2 ⟨Expr.allows_indices argument h.1, arguments_allow_indices rest h.2⟩

theorem Selector.allows_indices : ∀ selector : Selector, selector.Proper dialect →
    ∀ i ∈ selector.indices, dialect.Allows i
  | .name _ _, _ | .wildcard _, _ => List.forall_mem_nil _
  | .index _ _, h => List.forall_mem_singleton.2 h
  | .slice _ start? stop? step?, h => by
    simp only [Selector.indices, List.mem_append, Option.mem_toList]
    rintro i ((hi | hi) | hi)
    · exact h.1 i hi
    · exact h.2.1 i hi
    · exact h.2.2 i hi
  | .filter _ expression, h => Expr.allows_indices expression h.1

theorem selectors_allow_indices : ∀ selectors : List Selector, selectorsProper dialect selectors →
    ∀ i ∈ selectorsIndices selectors, dialect.Allows i
  | [], _ => List.forall_mem_nil _
  | selector :: rest, h =>
    List.forall_mem_append.2
      ⟨Selector.allows_indices selector h.1, selectors_allow_indices rest h.2⟩

theorem Segment.allows_indices : ∀ segment : Segment, segment.Proper dialect →
    ∀ i ∈ segment.indices, dialect.Allows i
  | .child _ selectors, h | .descendant _ selectors, h => selectors_allow_indices selectors h.2

theorem segments_allow_indices : ∀ segments : List Segment, segmentsProper dialect segments →
    ∀ i ∈ segmentsIndices segments, dialect.Allows i
  | [], _ => List.forall_mem_nil _
  | segment :: rest, h =>
    List.forall_mem_append.2 ⟨Segment.allows_indices segment h.1, segments_allow_indices rest h.2⟩

end

/-! ### Failures -/

/-- The token is an integer of this many digits. -/
def Token.IsInteger (token : Token) (digits : Nat) : Prop :=
  token.kind = .integer ∧ ∃ n : Numeral, n.Spells token.text.toList ∧ n.isInteger ∧
    n.whole.length = digits

/-- The query is at fault, or one of the tokens is an integer that is too long to be read. -/
def CompileError.IsExpected (tokens : List Token) (e : CompileError) : Prop :=
  (∃ error, e = .query error) ∨
    ∃ token ∈ tokens, ∃ digits, token.IsInteger digits ∧ longestInteger < digits ∧
      e = .numeral (.tooLong digits)

namespace Parser

variable {tokens : List Token} {t : Token}

theorem isExpected_readInteger {n : Numeral} (ht : t ∈ tokens) (hkind : t.kind = .integer)
    (hspells : n.Spells t.text.toList) (hinteger : n.isInteger) {e : CompileError}
    (h : readNumeral (Numeral.readInteger t.text) = .error e) : e.IsExpected tokens := by
  rw [Numeral.readInteger_of_spells hspells hinteger] at h
  unfold Numeral.integer at h
  split at h
  next hlong =>
    cases h
    exact .inr ⟨t, ht, _, ⟨hkind, n, hspells, hinteger, rfl⟩, hlong, rfl⟩
  · cases h

theorem isExpected_index (hscanned : t.Scanned) (ht : t ∈ tokens) (hkind : t.kind = .integer)
    {e : CompileError} (h : index dialect t = .error e) : e.IsExpected tokens := by
  obtain ⟨n, hspells, hinteger⟩ := hscanned.integer hkind
  unfold index at h
  dsimp only at h
  split at h
  · cases h
    exact .inl ⟨_, rfl⟩
  · cases hread : readNumeral (Numeral.readInteger t.text) with
    | error e' =>
      rw [hread] at h
      cases h
      exact isExpected_readInteger ht hkind hspells hinteger hread
    | ok i =>
      simp only [hread, bind, Except.bind] at h
      split at h
      · cases h
      · cases h
        exact .inl ⟨_, rfl⟩

theorem isExpected_number (hscanned : t.Scanned) (ht : t ∈ tokens)
    (hkind : t.kind = .integer ∨ t.kind = .decimal) {e : CompileError} (h : number t = .error e) :
    e.IsExpected tokens := by
  unfold number at h
  dsimp only at h
  split at h
  · cases h
    exact .inl ⟨_, rfl⟩
  · split at h
    next hinteger =>
      obtain ⟨n, hspells, hn⟩ := hscanned.integer hinteger
      cases hread : readNumeral (Numeral.readInteger t.text) with
      | error e' =>
        rw [hread] at h
        cases h
        exact isExpected_readInteger ht hinteger hspells hn hread
      | ok i =>
        rw [hread] at h
        cases h
    next hdecimal =>
      obtain ⟨n, hspells⟩ := hscanned.decimal (hkind.resolve_left hdecimal)
      rw [Numeral.readDouble_of_spells hspells] at h
      cases h

/-- The parser mirrors itself, and where it fails the failure is one of those that are expected. -/
def Mirror.expected (dialect : Dialect) (tokens : List Token) (hscanned : ∀ t ∈ tokens, t.Scanned) :
    Mirror dialect dialect where
  token t u := t = u ∧ (t.kind ≠ .endOfQuery → t ∈ tokens)
  failure e _ := e.IsExpected tokens
  excused _ := False
  kind_eq h := congrArg Token.kind h.1
  text_eq h := congrArg Token.text h.1
  signatures_eq := .refl dialect
  fault _ _ := .inl ⟨_, rfl⟩
  index := by
    rintro t _ ⟨rfl, ht⟩ hkind
    have hmem : t ∈ tokens := ht (by simp [hkind])
    exact .self fun e he => isExpected_index (hscanned t hmem) hmem hkind he
  number := by
    rintro t _ ⟨rfl, ht⟩ hkind
    have hmem : t ∈ tokens := ht (by rcases hkind with h | h <;> simp [h])
    exact .self fun e he => isExpected_number (hscanned t hmem) hmem hkind he

/-- The failure of an index that the bounds do not allow. -/
def IsIndexFault (e : CompileError) : Prop :=
  ∃ token : Token, e = .query ⟨.indexOutOfRange token.text, some token⟩

/-- With narrower bounds the parser mirrors itself, but for faults of indices. -/
def Mirror.narrowed {dialect wider : Dialect} (hsignatures : dialect.signatures = wider.signatures)
    (hleast : wider.leastIndex ≤ dialect.leastIndex)
    (hgreatest : dialect.greatestIndex ≤ wider.greatestIndex) : Mirror dialect wider where
  token t u := t = u
  failure e e' := e = e'
  excused := IsIndexFault
  kind_eq h := congrArg Token.kind h
  text_eq h := congrArg Token.text h
  signatures_eq := hsignatures
  fault _ h := by rw [h]
  index := by
    rintro t _ rfl -
    unfold Parser.index
    dsimp only
    split
    · exact .error rfl
    · refine (Outcome.self fun _ _ => rfl).bind ?_
      rintro n _ rfl
      by_cases hin : dialect.leastIndex ≤ n ∧ n ≤ dialect.greatestIndex
      · rw [if_pos hin, if_pos ⟨hleast.trans hin.1, hin.2.trans hgreatest⟩]
        exact .ok rfl
      · rw [if_neg hin]
        exact .excused ⟨t, rfl⟩
  number := by
    rintro t _ rfl -
    exact .self fun _ _ => rfl

/-- A text whose tokens stand for themselves. -/
theorem Mirror.steps_ofText {dialect' : Dialect} (m : Mirror dialect dialect') {text : Text}
    (htokens : Token.ofQuery text = .ok tokens) (h : ∀ t ∈ tokens, m.token t t) :
    m.Steps (SegmentsMirror m.token) (Query.ofText dialect text) (Query.ofText dialect' text) := by
  obtain ⟨ts, final, rfl, hfinal, -⟩ := scanned_of_ofQuery htokens
  obtain ⟨hts, hlast⟩ := List.forall_mem_append.1 h
  rw [Query.ofText_of_ofQuery htokens, Query.ofText_of_ofQuery htokens]
  exact m.steps_ofTokens (List.forall₂_same.2 hts) (hlast final List.mem_cons_self) hfinal

end Parser

/-- Compiling fails for a fault of the query, or for an integer in it that is too long. -/
theorem isExpected_of_ofText {text : Text} {e : CompileError}
    (h : Query.ofText dialect text = .error e) :
    (∃ error, e = .query error) ∨
      ∃ tokens, Token.ofQuery text = .ok tokens ∧ e.IsExpected tokens := by
  cases htokens : Token.ofQuery text with
  | error error =>
    unfold Query.ofText at h
    rw [htokens] at h
    cases h
    exact .inl ⟨error, rfl⟩
  | ok tokens =>
    obtain ⟨ts, final, rfl, hfinal, hscanned⟩ := scanned_of_ofQuery htokens
    let mirror := Parser.Mirror.expected dialect ts hscanned.each
    have hself : ∀ t ∈ ts ++ [final], mirror.token t t := by
      refine List.forall_mem_append.2 ⟨fun t ht => ⟨rfl, fun _ => ht⟩, ?_⟩
      exact List.forall_mem_singleton.2 ⟨rfl, fun hne => absurd hfinal hne⟩
    have hsteps := mirror.steps_ofText htokens hself
    rw [h] at hsteps
    cases hsteps with
    | excused hfalse => exact hfalse.elim
    | error hexpected =>
      refine .inr ⟨_, rfl, hexpected.imp id ?_⟩
      exact fun ⟨t, ht, hlong⟩ => ⟨t, List.mem_append_left _ ht, hlong⟩

/-- If the bounds alone are too narrow for a query, compiling it is a fault of an index. -/
theorem isIndexFault_of_ofText {wider : Dialect} {text : Text} {query : Query}
    (hsignatures : dialect.signatures = wider.signatures)
    (hleast : wider.leastIndex ≤ dialect.leastIndex)
    (hgreatest : dialect.greatestIndex ≤ wider.greatestIndex)
    (h : Query.ofText wider text = .ok query) {i : Int} (hi : i ∈ query.indices)
    (hout : i < dialect.leastIndex ∨ dialect.greatestIndex < i) :
    ∃ e, Query.ofText dialect text = .error e ∧ Parser.IsIndexFault e := by
  obtain ⟨ts, final, htokens, -⟩ := Grammar.ofText_eq_ok_iff.1 h
  let mirror := Parser.Mirror.narrowed hsignatures hleast hgreatest
  have hsteps := mirror.steps_ofText htokens fun _ _ => rfl
  rw [h] at hsteps
  generalize hquery : Query.ofText dialect text = outcome at hsteps ⊢
  cases hsteps with
  | excused hfault => exact ⟨_, rfl, hfault⟩
  | ok hsegs =>
    obtain rfl := segments_eq_of_mirror (fun heq => heq) hsegs
    have hallows := segments_allow_indices _ (Query.wellFormed_of_ofText hquery).proper i hi
    have := hallows.least
    have := hallows.greatest
    omega

/-- Compiling fails only for a fault of the query, or for an integer in it that is too long to be
read. If narrower bounds alone stand against a query, it is a fault of an index. -/
theorem compile_faults (environment : Environment) (text : Text) :
    (∀ e, environment.compile text = .error e → (∃ error, e = .query error) ∨
      ∃ tokens, Token.ofQuery text = .ok tokens ∧
        ∃ token ∈ tokens, ∃ digits, token.IsInteger digits ∧ longestInteger < digits ∧
          e = .numeral (.tooLong digits)) ∧
    ∀ (wider : Environment) (query : Query), wider.functions = environment.functions →
      wider.leastIndex ≤ environment.leastIndex →
      environment.greatestIndex ≤ wider.greatestIndex → wider.compile text = .ok query →
      ∀ i ∈ query.indices, (i < environment.leastIndex ∨ environment.greatestIndex < i) →
        ∃ token : Token,
          environment.compile text = .error (.query ⟨.indexOutOfRange token.text, some token⟩) := by
  refine ⟨fun e he => ?_, fun wider query hfunctions hleast hgreatest hquery i hi hout => ?_⟩
  · rcases isExpected_of_ofText he with hquery | ⟨tokens, htokens, hquery | hlong⟩
    · exact .inl hquery
    · exact .inl hquery
    · exact .inr ⟨tokens, htokens, hlong⟩
  · have hsignatures : environment.dialect.signatures = wider.dialect.signatures :=
      congrArg Registry.signatures hfunctions.symm
    obtain ⟨e, he, token, rfl⟩ :=
      isIndexFault_of_ofText hsignatures hleast hgreatest hquery hi hout
    exact ⟨token, he⟩

/-- With bounds for one digit, the end of a slice within a filter is at fault. -/
theorem compile_faults_slice : ∃ token : Token,
    ({ Environment.standard with leastIndex := -9, greatestIndex := 9 } : Environment).compile
      "$[?@[:10]]" = .error (.query ⟨.indexOutOfRange token.text, some token⟩) := by
  obtain ⟨query, hquery, hindices⟩ : ∃ query,
      Environment.standard.compile "$[?@[:10]]" = .ok query ∧ query.indices = [10] :=
    ⟨_, by cbv, by cbv⟩
  exact (compile_faults _ "$[?@[:10]]").2 Environment.standard query rfl (by decide) (by decide)
    hquery 10 (by rw [hindices]; exact List.mem_singleton_self _) (.inr (by decide))

/-! ### Integers that are too long -/

theorem index_tooLong {n : Int} (h : ¬ IsShort n) {token : Token}
    (htoken : token.shape = integerShape n) :
    Parser.index dialect token =
      .error (.numeral (.tooLong (Text.digits 10 n.natAbs).length)) := by
  have hidle := hasIdleZero_ofInt n
  obtain ⟨-, htext⟩ := Prod.mk.inj htoken
  unfold Parser.index
  rw [htext, hidle, Numeral.readInteger_of_spells (Numeral.spells_ofInteger n) rfl]
  have hlong : longestInteger < (Numeral.ofInteger n).whole.length := Nat.lt_of_not_le h
  unfold Numeral.integer
  rw [if_pos hlong]
  rfl

namespace Parser

variable {s : Stream} {e : CompileError}

theorem selector_error (h : s.peek.kind = .integer) (he : index dialect s.peek = .error e) :
    selector dialect s = .error e := by
  rw [selector]
  split <;> simp_all [bind, Except.bind]

theorem bracketed_error (h : s.peek.kind = .openSquare)
    (hclose : s.advance.peek.kind ≠ .closeSquare) (he : selector dialect s.advance = .error e) :
    bracketed dialect s h = .error e := by
  rw [bracketed, if_neg hclose, selectors, he]
  rfl

theorem segments_error (h : s.peek.kind = .openSquare) (he : bracketed dialect s h = .error e) :
    segments dialect s = .error e := by
  rw [segments]
  split
  next heq => cases h.symm.trans heq
  next heq => cases h.symm.trans heq
  next =>
    rw [he]
    rfl
  next hopen => exact absurd h hopen

/-- A query fails as the index does that it starts with. -/
theorem query_error (hroot : s.peek.kind = .root) (hbracket : s.advance.peek.kind = .openSquare)
    (hindex : s.advance.advance.peek.kind = .integer)
    (he : index dialect s.advance.advance.peek = .error e) : query dialect s = .error e := by
  have hselector := selector_error hindex he
  have hsegments := segments_error hbracket (bracketed_error hbracket (by simp [hindex]) hselector)
  unfold query
  rw [Stream.expect_eq_ok_iff.2 hroot, hsegments]
  rfl

end Parser

/-- An integer that is too long to be read is a fault of the numeral, though no bounds of fewer
digits allow it as an index. -/
theorem compile_tooLong (environment : Environment) {n : Int} (h : ¬ IsShort n) :
    environment.compile ("$[" ++ Text.ofInt n ++ "]") =
      .error (.numeral (.tooLong (Text.digits 10 n.natAbs).length)) := by
  have htext : ("$[" ++ Text.ofInt n ++ "]").toList =
      ("$" : Text).toList ++
        (("[" : Text).toList ++ ((Text.ofInt n).toList ++ ("]" : Text).toList)) := by
    rw [Text.toList_append, Text.toList_append, List.append_assoc]
    rfl
  have hends : Numeral.EndsNumber (("]" : Text).toList ++ []) := by
    rintro c ⟨⟩
    decide
  have hlexes : Lexer.Lexes ("$[" ++ Text.ofInt n ++ "]").toList
      [(.root, "$"), (.openSquare, "["), integerShape n, (.closeSquare, "]")] [] := by
    rw [htext]
    refine Lexer.Lexes.append (Lexer.lexes_symbol rfl (by decide) (by decide)) ?_
    refine Lexer.Lexes.append (Lexer.lexes_symbol rfl (by decide) (by decide)) ?_
    refine Lexer.Lexes.append (lexes_integer n hends) ?_
    exact Lexer.lexes_symbol rfl (by decide) (by decide)
  obtain ⟨ts, final, htokens, hfinal, hshapes⟩ := hlexes.ofQuery htext
  simp only [List.map_eq_cons_iff, List.map_eq_nil_iff] at hshapes
  obtain ⟨root, _, rfl, hroot, bracket, _, rfl, hbracket, token, _, rfl, htoken,
    close, _, rfl, -, rfl⟩ := hshapes
  unfold Environment.compile
  rw [Query.ofText_of_ofQuery htokens]
  unfold Query.ofTokens
  rw [Stream.ofTokens?_append hfinal]
  exact Parser.query_error (Prod.mk.inj hroot).1 (Prod.mk.inj hbracket).1 (Prod.mk.inj htoken).1
    (index_tooLong h htoken)

theorem length_toDigits_power (k : Nat) :
    (Text.digits 10 ((10 : Int) ^ k).natAbs).length = k + 1 := by
  have hpower : ((10 : Int) ^ k).natAbs = 10 ^ k := Int.natAbs_pow 10 k
  rw [hpower, Text.length_digits]
  refine le_antisymm ?_ ?_
  · exact (Nat.length_toDigits_le_iff (by decide) k.succ_pos).2 (Nat.pow_lt_pow_succ (by decide))
  · by_contra hshort
    have hle : (Nat.toDigits 10 (10 ^ k)).length ≤ k := by omega
    have hpos : 0 < k := Nat.length_toDigits_pos.trans_le hle
    exact absurd ((Nat.length_toDigits_le_iff (by decide) hpos).1 hle) (Nat.lt_irrefl _)

/-- The least integer that is too long lies beyond the bounds, but it is no fault of an index. -/
theorem not_indexFault_power :
    Environment.standard.greatestIndex < 10 ^ longestInteger ∧
    Environment.standard.compile ("$[" ++ Text.ofInt ((10 : Int) ^ longestInteger) ++ "]") =
      .error (.numeral (.tooLong (longestInteger + 1))) := by
  refine ⟨?_, ?_⟩
  · calc (9007199254740991 : Int) < 10 ^ 16 := by decide
      _ ≤ 10 ^ longestInteger := pow_le_pow_right₀ (by decide) (by decide)
  · have hlong : ¬ IsShort ((10 : Int) ^ longestInteger) := by
      unfold IsShort
      rw [length_toDigits_power]
      exact Nat.not_succ_le_self _
    rw [compile_tooLong _ hlong, length_toDigits_power]

end JsonPath
