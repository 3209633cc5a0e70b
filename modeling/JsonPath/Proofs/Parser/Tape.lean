import JsonPath.Query.Parser

/-!
# The parser as loops over a tape

The parser as it works through a token sequence: it takes the tokens from a stream that it changes,
and goes round its loops as long as their conditions let it. Nothing here says that it ends: how far
the calls and the rounds go down is cut off at a limit, and a run that reaches the limit has no
outcome. To one that has an outcome a higher limit makes no difference. On the way the parser notes
what it does: the tokens it takes, the calls of the parser of expressions, and each pass through one
of its loops once it is complete.
-/

namespace JsonPath

namespace Parser

/-- The loops of the parser: over the segments of a query, the selectors between brackets, the
operators of an expression, and the arguments of a call. -/
inductive Loop where
  | segments
  | selectors
  | operators
  | arguments
deriving DecidableEq, Repr

/-- What the parser notes: a token that it takes, a call of the parser of expressions with the
streams at which the calls around it began, and a pass through a loop with the stream at which the
pass began. -/
inductive Act where
  | took (token : Token)
  | entered (around : List Stream)
  | passed (loop : Loop) (since : Stream)

/-- What was done, and the stream at which it was done. -/
structure Entry where
  act : Act
  stream : Stream

/-- What the parser works on: the tokens ahead, the streams at which the open calls of the parser of
expressions began, innermost first, and what was noted so far. -/
structure Tape where
  stream : Stream
  calls : List Stream
  log : List Entry

/-- A part of the parser at work. An error leaves the tape as it is then. -/
abbrev Reading := ExceptT CompileError (StateT Tape Option)

namespace Reading

variable {α : Type}

/-- The outcome of a reading and the tape after it, if the reading ends within its limit. -/
def outcome (reading : Reading α) (tape : Tape) : Option (Except CompileError α × Tape) :=
  reading.run.run tape

/-- The end of the limit, which leaves a reading without an outcome. -/
def exhausted : Reading α := ExceptT.mk fun _ => none

def note (act : Act) : Reading Unit :=
  modify fun tape => { tape with log := tape.log ++ [⟨act, tape.stream⟩] }

def stream : Reading Stream := return (← get).stream

def peek : Reading Token := return (← get).stream.peek

/-- Takes the next token. The end token at the very end is taken as often as it is asked for. -/
def take : Reading Token := do
  let token ← peek
  note (.took token)
  modify fun tape => { tape with stream := tape.stream.advance }
  return token

def enter : Reading Unit := do
  note (.entered (← get).calls)
  modify fun tape => { tape with calls := tape.stream :: tape.calls }

def leave : Reading Unit :=
  modify fun tape => { tape with calls := tape.calls.tail }

/-- A call of the parser of expressions. -/
def enclosed (body : Reading α) : Reading α := do
  enter
  let a ← body
  leave
  return a

/-- A step that reads no tokens. -/
def check : Except CompileError α → Reading α
  | .ok a => pure a
  | .error error => throw error

def expect (kind : TokenKind) : Reading Unit := do
  check (require ((← stream).expect kind))

def expectNot (kind : TokenKind) (fault : QueryFault) : Reading Unit := do
  check (require ((← stream).expectNot kind fault))

def optionalIndex (dialect : Dialect) : Reading (Option Int) := do
  if (← peek).kind = .integer then
    let token ← take
    let n ← check (index dialect token)
    return some n
  else return none

def sliceRest (dialect : Dialect) (token : Token) (start? : Option Int) : Reading Selector := do
  let stop? ← optionalIndex dialect
  if (← peek).kind = .colon then
    let _ ← take
    let step? ← optionalIndex dialect
    return .slice token start? stop? step?
  else return .slice token start? stop? none

mutual

def segments (dialect : Dialect) : Nat → Reading (List Segment)
  | 0 => exhausted
  | limit + 1 => do
    let since ← stream
    match since.peek.kind with
    | .doubleDot =>
      let dots ← take
      let first ← dotted dialect dots limit
      note (.passed .segments since)
      let more ← segments dialect limit
      return .descendant dots first :: more
    | .dot =>
      let dots ← take
      let first ← dotted dialect dots limit
      note (.passed .segments since)
      let more ← segments dialect limit
      return .child dots first :: more
    | .openSquare =>
      let opening ← peek
      let first ← bracketed dialect limit
      note (.passed .segments since)
      let more ← segments dialect limit
      return .child opening first :: more
    | _ => return []

def dotted (dialect : Dialect) (dots : Token) : Nat → Reading (List Selector)
  | 0 => exhausted
  | limit + 1 => do
    let next ← peek
    match next.kind with
    | .name =>
      let token ← take
      return [.name token token.text]
    | .wildcard =>
      let token ← take
      return [.wildcard token]
    | .openSquare => bracketed dialect limit
    | _ => check (fail (.expectedSelectorAfter dots.text) dots)

def bracketed (dialect : Dialect) : Nat → Reading (List Selector)
  | 0 => exhausted
  | limit + 1 => do
    let opening ← take
    if (← peek).kind = .closeSquare then check (fail .emptyBrackets opening)
    else selectors dialect limit

def selectors (dialect : Dialect) : Nat → Reading (List Selector)
  | 0 => exhausted
  | limit + 1 => do
    let since ← stream
    let first ← selector dialect limit
    let next ← peek
    match next.kind with
    | .endOfQuery => check (fail .endAfterSelector next)
    | .closeSquare =>
      note (.passed .selectors since)
      let _ ← take
      return [first]
    | _ =>
      expect .comma
      let _ ← take
      expectNot .closeSquare .trailingComma
      note (.passed .selectors since)
      let more ← selectors dialect limit
      return first :: more

def selector (dialect : Dialect) : Nat → Reading Selector
  | 0 => exhausted
  | limit + 1 => do
    let next ← peek
    match next.kind with
    | .integer =>
      let token ← take
      let n ← check (index dialect token)
      if (← peek).kind = .colon then
        let _ ← take
        sliceRest dialect token (some n)
      else return .index token n
    | .singleQuoted =>
      let token ← take
      let name ← check (require token.literalText)
      return .name token name
    | .doubleQuoted =>
      let token ← take
      let name ← check (require token.literalText)
      return .name token name
    | .colon =>
      let token ← take
      sliceRest dialect token none
    | .wildcard =>
      let token ← take
      return .wildcard token
    | .filter =>
      let token ← take
      let test ← expression dialect .lowest limit
      check (require (test.checkTest dialect.signatures))
      return .filter token test
    | .endOfQuery => check (fail .endInBrackets next)
    | _ => check (fail (.unexpectedInBrackets next.text) next)

def expression (dialect : Dialect) (level : Level) : Nat → Reading Expr
  | 0 => exhausted
  | limit + 1 => enclosed do
    let grouped := (← peek).kind == .openParen
    let first ← operand dialect limit
    operations dialect level grouped first limit

def operations (dialect : Dialect) (level : Level) (grouped : Bool) (left : Expr) :
    Nat → Reading Expr
  | 0 => exhausted
  | limit + 1 => do
    let since ← stream
    if binds since.peek.kind level then
      let operator ← take
      if (comparison? operator.kind).isSome && grouped then
        check (fail .groupNotComparable operator)
      else
        let next ← operation dialect left operator limit
        note (.passed .operators since)
        operations dialect level false next limit
    else return left

def operation (dialect : Dialect) (left : Expr) (operator : Token) : Nat → Reading Expr
  | 0 => exhausted
  | limit + 1 => do
    match comparison? operator.kind with
    | some comparison =>
      let next ← peek
      if next.kind = .openParen then check (fail .groupNotComparable next)
      else
        let right ← expression dialect .relation limit
        check (require (left.checkComparable dialect.signatures))
        check (require (right.checkComparable dialect.signatures))
        return .comparison operator left comparison right
    | none =>
      let conjunction := operator.kind = .conjunction
      let right ← expression dialect (if conjunction then .conjunction else .disjunction) limit
      check (require (left.checkTest dialect.signatures))
      check (require (right.checkTest dialect.signatures))
      return if conjunction then .conjunction operator left right
        else .disjunction operator left right

/-- Takes the token that the operand begins with, whatever it is: also an end token. -/
def operand (dialect : Dialect) : Nat → Reading Expr
  | 0 => exhausted
  | limit + 1 => do
    let token ← take
    match token.kind with
    | .singleQuoted =>
      let text ← check (require token.literalText)
      return .literal token (.string text)
    | .doubleQuoted =>
      let text ← check (require token.literalText)
      return .literal token (.string text)
    | .integer =>
      let n ← check (number token)
      return .literal token (.number n)
    | .decimal =>
      let n ← check (number token)
      return .literal token (.number n)
    | .trueWord => return .literal token (.boolean true)
    | .falseWord => return .literal token (.boolean false)
    | .nullWord => return .literal token .null
    | .negation =>
      let e ← expression dialect .unary limit
      check (require (e.checkTest dialect.signatures))
      return .negation token e
    | .openParen =>
      let e ← expression dialect .lowest limit
      expect .closeParen
      let _ ← take
      check (require (e.checkTest dialect.signatures))
      return e
    | .root =>
      let path ← segments dialect limit
      return .absolute token path
    | .current =>
      let path ← segments dialect limit
      return .relative token path
    | .function => call dialect token limit
    | .endOfQuery => check (fail .endInFilter token)
    | _ => check (fail (.unexpectedInFilter token.text) token)

def call (dialect : Dialect) (function : Token) : Nat → Reading Expr
  | 0 => exhausted
  | limit + 1 => do
    expect .openParen
    let _ ← take
    if (← peek).kind = .closeParen then
      let _ ← take
      check (require (checkCall dialect.signatures function function.text []))
      return .call function function.text []
    else
      let given ← arguments dialect limit
      check (require (checkCall dialect.signatures function function.text given))
      return .call function function.text given

def arguments (dialect : Dialect) : Nat → Reading (List Expr)
  | 0 => exhausted
  | limit + 1 => do
    let since ← stream
    let first ← expression dialect .lowest limit
    if (← peek).kind = .closeParen then
      note (.passed .arguments since)
      let _ ← take
      return [first]
    else
      expect .comma
      let _ ← take
      expectNot .closeParen .trailingComma
      note (.passed .arguments since)
      let more ← arguments dialect limit
      return first :: more

end

/-- The query of a whole stream, up to the first end token. -/
def query (dialect : Dialect) (limit : Nat) : Reading Query := do
  expect .root
  let _ ← take
  let path ← segments dialect limit
  let next ← peek
  if next.kind = .endOfQuery then return path
  else check (fail (.unexpected next.text) next)

/-! ### The limit -/

variable {β : Type} {reading reading' : Reading α} {next next' : α → Reading β} {tape tape' : Tape}

theorem outcome_bind_none (h : reading.outcome tape = none) :
    (reading >>= next).outcome tape = none := by
  unfold outcome at h ⊢
  rw [ExceptT.run_bind, StateT.run_bind, h]
  rfl

theorem outcome_bind_ok {a : α} (h : reading.outcome tape = some (.ok a, tape')) :
    (reading >>= next).outcome tape = (next a).outcome tape' := by
  unfold outcome at h ⊢
  rw [ExceptT.run_bind, StateT.run_bind, h]
  rfl

theorem outcome_bind_error {error : CompileError}
    (h : reading.outcome tape = some (.error error, tape')) :
    (reading >>= next).outcome tape = some (.error error, tape') := by
  unfold outcome at h ⊢
  rw [ExceptT.run_bind, StateT.run_bind, h]
  rfl

/-- Where the one reading has an outcome, the other has the same. -/
def Within (reading reading' : Reading α) : Prop :=
  ∀ tape outcome, reading.outcome tape = some outcome → reading'.outcome tape = some outcome

theorem Within.refl (reading : Reading α) : reading.Within reading := fun _ _ h => h

theorem Within.trans {reading'' : Reading α} (h : reading.Within reading')
    (h' : reading'.Within reading'') : reading.Within reading'' :=
  fun _ _ houtcome => h' _ _ (h _ _ houtcome)

theorem exhausted_within : exhausted.Within reading := by
  intro tape outcome h
  have hnone : none = some outcome := h
  cases hnone

theorem Within.bind (h : reading.Within reading') (hnext : ∀ a, (next a).Within (next' a)) :
    (reading >>= next).Within (reading' >>= next') := by
  intro tape outcome hrun
  cases hfirst : reading.outcome tape with
  | none => rw [outcome_bind_none hfirst] at hrun; cases hrun
  | some first =>
    obtain ⟨result, tape'⟩ := first
    cases result with
    | error error =>
      rw [outcome_bind_error hfirst] at hrun
      rw [outcome_bind_error (h _ _ hfirst), hrun]
    | ok a =>
      rw [outcome_bind_ok hfirst] at hrun
      rw [outcome_bind_ok (h _ _ hfirst), hnext a _ _ hrun]

theorem Within.after (hnext : ∀ a, (next a).Within (next' a)) :
    (reading >>= next).Within (reading >>= next') :=
  (Within.refl reading).bind hnext

theorem Within.enclosed (h : reading.Within reading') :
    (enclosed reading).Within (enclosed reading') :=
  .after fun _ => h.bind fun _ => .refl _

variable {dialect : Dialect}

mutual

theorem segments_within : ∀ limit, (segments dialect limit).Within (segments dialect (limit + 1))
  | 0 => exhausted_within
  | limit + 1 => by
    rw [segments, segments]
    refine .after fun since => ?_
    split
    case h_1 | h_2 =>
      exact .after fun dots => (dotted_within dots limit).bind fun _ =>
        .after fun _ => (segments_within limit).bind fun _ => .refl _
    case h_3 =>
      exact .after fun _ => (bracketed_within limit).bind fun _ =>
        .after fun _ => (segments_within limit).bind fun _ => .refl _
    case h_4 => exact .refl _

theorem dotted_within (dots : Token) :
    ∀ limit, (dotted dialect dots limit).Within (dotted dialect dots (limit + 1))
  | 0 => exhausted_within
  | limit + 1 => by
    rw [dotted, dotted]
    refine .after fun next => ?_
    split
    case h_3 => exact bracketed_within limit
    all_goals exact .refl _

theorem bracketed_within :
    ∀ limit, (bracketed dialect limit).Within (bracketed dialect (limit + 1))
  | 0 => exhausted_within
  | limit + 1 => by
    rw [bracketed, bracketed]
    refine .after fun _ => .after fun next => ?_
    split
    · exact .refl _
    · exact selectors_within limit

theorem selectors_within :
    ∀ limit, (selectors dialect limit).Within (selectors dialect (limit + 1))
  | 0 => exhausted_within
  | limit + 1 => by
    rw [selectors, selectors]
    refine .after fun _ => (selector_within limit).bind fun _ => .after fun next => ?_
    split
    case h_3 =>
      exact .after fun _ => .after fun _ => .after fun _ => .after fun _ =>
        (selectors_within limit).bind fun _ => .refl _
    all_goals exact .refl _

theorem selector_within : ∀ limit, (selector dialect limit).Within (selector dialect (limit + 1))
  | 0 => exhausted_within
  | limit + 1 => by
    rw [selector, selector]
    refine .after fun next => ?_
    split
    case h_6 => exact .after fun _ => (expression_within .lowest limit).bind fun _ => .refl _
    all_goals exact .refl _

theorem expression_within (level : Level) :
    ∀ limit, (expression dialect level limit).Within (expression dialect level (limit + 1))
  | 0 => exhausted_within
  | limit + 1 => by
    rw [expression, expression]
    exact .enclosed (.after fun _ => (operand_within limit).bind fun _ =>
      operations_within level _ _ limit)

theorem operations_within (level : Level) (grouped : Bool) (left : Expr) :
    ∀ limit, (operations dialect level grouped left limit).Within
      (operations dialect level grouped left (limit + 1))
  | 0 => exhausted_within
  | limit + 1 => by
    rw [operations, operations]
    refine .after fun since => ?_
    split
    · refine .after fun operator => ?_
      split
      · exact .refl _
      · exact (operation_within left operator limit).bind fun next =>
          .after fun _ => operations_within level false next limit
    · exact .refl _

theorem operation_within (left : Expr) (operator : Token) :
    ∀ limit, (operation dialect left operator limit).Within
      (operation dialect left operator (limit + 1))
  | 0 => exhausted_within
  | limit + 1 => by
    rw [operation, operation]
    split
    · refine .after fun next => ?_
      split
      · exact .refl _
      · exact (expression_within .relation limit).bind fun _ => .refl _
    · exact (expression_within _ limit).bind fun _ => .refl _

theorem operand_within : ∀ limit, (operand dialect limit).Within (operand dialect (limit + 1))
  | 0 => exhausted_within
  | limit + 1 => by
    rw [operand, operand]
    refine .after fun token => ?_
    split
    case h_8 => exact (expression_within .unary limit).bind fun _ => .refl _
    case h_9 => exact (expression_within .lowest limit).bind fun _ => .refl _
    case h_10 | h_11 => exact (segments_within limit).bind fun _ => .refl _
    case h_12 => exact call_within token limit
    all_goals exact .refl _

theorem call_within (function : Token) :
    ∀ limit, (call dialect function limit).Within (call dialect function (limit + 1))
  | 0 => exhausted_within
  | limit + 1 => by
    rw [call, call]
    refine .after fun _ => .after fun _ => .after fun next => ?_
    split
    · exact .refl _
    · exact (arguments_within limit).bind fun _ => .refl _

theorem arguments_within :
    ∀ limit, (arguments dialect limit).Within (arguments dialect (limit + 1))
  | 0 => exhausted_within
  | limit + 1 => by
    rw [arguments, arguments]
    refine .after fun _ => (expression_within .lowest limit).bind fun _ => .after fun next => ?_
    split
    · exact .refl _
    · exact .after fun _ => .after fun _ => .after fun _ => .after fun _ =>
        (arguments_within limit).bind fun _ => .refl _

end

/-- A run that has an outcome has the same with any higher limit. -/
theorem query_within {limit limit' : Nat} (h : limit ≤ limit') :
    (query dialect limit).Within (query dialect limit') := by
  induction h with
  | refl => exact .refl _
  | step _ ih =>
    exact ih.trans (.after fun _ => .after fun _ => (segments_within _).bind fun _ => .refl _)

end Reading

end Parser

end JsonPath
