import JsonPath.Query.Parser

/-!
# What one step of the parser does

Each part of the parser is characterised once: it reads an item from a stream, and leaves a rest,
exactly if the parts that it calls read theirs in the order stated here. Nothing later unfolds a
part of the parser again.
-/

namespace JsonPath.Parser

/-- Reading comes to an item and to the stream after it. -/
def Reads {bound : Nat} {α : Type} (result : Except CompileError (Parsed bound α)) (item : α)
    (rest : Stream) : Prop :=
  ∃ shorter, result = .ok ⟨item, rest, shorter⟩

section Monad

variable {bound bound' : Nat} {α β : Type} {item : α} {rest : Stream}

theorem reads_bind {x : Except CompileError (Parsed bound' β)}
    {f : Parsed bound' β → Except CompileError (Parsed bound α)} :
    Reads (x >>= f) item rest ↔
      ∃ first s, ∃ h : s.size < bound', x = .ok ⟨first, s, h⟩ ∧
        Reads (f ⟨first, s, h⟩) item rest := by
  unfold Reads
  cases x with
  | error => simp [bind, Except.bind]
  | ok r =>
    obtain ⟨a, s, h⟩ := r
    constructor
    · rintro ⟨shorter, hf⟩
      exact ⟨a, s, h, rfl, shorter, hf⟩
    · rintro ⟨a', s', h', heq, shorter, hf⟩
      cases heq
      exact ⟨shorter, hf⟩

theorem reads_check {x : Except CompileError β}
    {f : β → Except CompileError (Parsed bound α)} :
    Reads (x >>= f) item rest ↔ ∃ b, x = .ok b ∧ Reads (f b) item rest := by
  unfold Reads
  cases x <;> simp [bind, Except.bind]

theorem reads_ok {r : Parsed bound α} :
    Reads (.ok r) item rest ↔ r.item = item ∧ r.rest = rest := by
  obtain ⟨a, s, h⟩ := r
  constructor
  · rintro ⟨shorter, heq⟩
    cases heq
    exact ⟨rfl, rfl⟩
  · rintro ⟨rfl, rfl⟩
    exact ⟨h, rfl⟩

theorem reads_pure {r : Parsed bound α} :
    Reads (pure r) item rest ↔ r.item = item ∧ r.rest = rest := reads_ok

theorem reads_error {e : CompileError} :
    ¬ Reads (.error e : Except CompileError (Parsed bound α)) item rest := by
  rintro ⟨_, h⟩
  cases h

theorem reads_fail {fault : QueryFault} {token : Token} :
    ¬ Reads (fail fault token : Except CompileError (Parsed bound α)) item rest := reads_error

theorem bind_eq_ok_iff {ε : Type} {x : Except ε α} {f : α → Except ε β} {b : β} :
    x >>= f = .ok b ↔ ∃ a, x = .ok a ∧ f a = .ok b := by
  cases x <;> simp [bind, Except.bind]

theorem require_eq_ok_iff {x : Except QueryError α} {a : α} : require x = .ok a ↔ x = .ok a := by
  cases x <;> simp [require]

theorem reads_require {x : Except QueryError Unit}
    {f : Unit → Except CompileError (Parsed bound α)} :
    Reads (require x >>= f) item rest ↔ x = .ok () ∧ Reads (f ()) item rest := by
  rw [reads_check]
  simp only [require_eq_ok_iff]
  exact ⟨fun ⟨_, h⟩ => h, fun h => ⟨(), h⟩⟩

theorem Reads.unique {result : Except CompileError (Parsed bound α)} {item' : α} {rest' : Stream}
    (h : Reads result item rest) (h' : Reads result item' rest') : item = item' ∧ rest = rest' := by
  obtain ⟨_, h⟩ := h
  obtain ⟨_, h'⟩ := h'
  cases h.symm.trans h'
  exact ⟨rfl, rfl⟩

theorem Reads.size_lt {result : Except CompileError (Parsed bound α)}
    (h : Reads result item rest) : rest.size < bound := by
  obtain ⟨shorter, -⟩ := h
  exact shorter

end Monad

variable {dialect : Dialect} {s rest : Stream}

theorem reads_segments_iff {item : List Segment} :
    Reads (segments dialect s) item rest ↔
      (s.peek.kind = .doubleDot ∧ ∃ first s₁ more,
        Reads (dotted dialect s.peek s.advance) first s₁ ∧ Reads (segments dialect s₁) more rest ∧
          .descendant s.peek first :: more = item) ∨
      (s.peek.kind = .dot ∧ ∃ first s₁ more,
        Reads (dotted dialect s.peek s.advance) first s₁ ∧ Reads (segments dialect s₁) more rest ∧
          .child s.peek first :: more = item) ∨
      (∃ h : s.peek.kind = .openSquare, ∃ first s₁ more,
        Reads (bracketed dialect s h) first s₁ ∧ Reads (segments dialect s₁) more rest ∧
          .child s.peek first :: more = item) ∨
      (s.peek.kind ≠ .doubleDot ∧ s.peek.kind ≠ .dot ∧ s.peek.kind ≠ .openSquare ∧
        [] = item ∧ s = rest) := by
  rw [segments]
  split
  next h =>
    simp only [reads_bind, reads_pure]
    simp [h, Reads]
  next h =>
    simp only [reads_bind, reads_pure]
    simp [h, Reads]
  next h =>
    simp only [reads_bind, reads_pure]
    simp [h, Reads]
  next => simp_all [reads_ok]

theorem reads_dotted_iff {dots : Token} {item : List Selector} :
    Reads (dotted dialect dots s) item rest ↔
      (s.peek.kind = .name ∧ [.name s.peek s.peek.text] = item ∧ s.advance = rest) ∨
      (s.peek.kind = .wildcard ∧ [.wildcard s.peek] = item ∧ s.advance = rest) ∨
      ∃ h : s.peek.kind = .openSquare, Reads (bracketed dialect s h) item rest := by
  rw [dotted]
  split <;> simp_all [reads_ok, reads_fail]

theorem reads_bracketed_iff {h : s.peek.kind = .openSquare} {item : List Selector} :
    Reads (bracketed dialect s h) item rest ↔
      s.advance.peek.kind ≠ .closeSquare ∧ Reads (selectors dialect s.advance) item rest := by
  rw [bracketed]
  split
  next hclose => simp [reads_check, fail, hclose]
  next hclose =>
    simp only [reads_bind, reads_pure]
    simp [hclose, Reads]

theorem reads_selectors_iff {item : List Selector} :
    Reads (selectors dialect s) item rest ↔ ∃ first s₁, Reads (selector dialect s) first s₁ ∧
      ((s₁.peek.kind = .closeSquare ∧ [first] = item ∧ s₁.advance = rest) ∨
       (s₁.peek.kind = .comma ∧ s₁.advance.peek.kind ≠ .closeSquare ∧
        ∃ more, Reads (selectors dialect s₁.advance) more rest ∧ first :: more = item)) := by
  rw [selectors]
  simp only [reads_bind]
  refine exists_congr fun first => exists_congr fun s₁ => ?_
  rw [Reads, ← exists_and_right]
  refine exists_congr fun h => and_congr_right fun _ => ?_
  split
  next hend => simp [reads_fail, hend]
  next hclose => simp [reads_pure, hclose]
  next kind hend hclose =>
    split
    next hcomma =>
      simp only [reads_require, Stream.expectNot_eq_ok_iff, reads_bind, reads_pure]
      simp [hcomma, Reads]
    next hcomma => simp_all [reads_error]

theorem reads_optionalIndex_iff {item : Option Int} :
    Reads (optionalIndex dialect s) item rest ↔
      (s.peek.kind = .integer ∧ ∃ n, index dialect s.peek = .ok n ∧ some n = item ∧
        s.advance = rest) ∨
      (s.peek.kind ≠ .integer ∧ none = item ∧ s = rest) := by
  unfold optionalIndex
  split
  next h =>
    rw [reads_check]
    simp [h, reads_pure]
  next h => simp [h, reads_ok]

theorem reads_sliceRest_iff {token : Token} {start? : Option Int} {item : Selector} :
    Reads (sliceRest dialect token start? s) item rest ↔
      ∃ stop? s₁, Reads (optionalIndex dialect s) stop? s₁ ∧
        ((s₁.peek.kind = .colon ∧ ∃ step?, Reads (optionalIndex dialect s₁.advance) step? rest ∧
            .slice token start? stop? step? = item) ∨
          (s₁.peek.kind ≠ .colon ∧ .slice token start? stop? none = item ∧ s₁ = rest)) := by
  unfold sliceRest
  simp only [reads_bind]
  refine exists_congr fun stop? => exists_congr fun s₁ => ?_
  rw [Reads, ← exists_and_right]
  refine exists_congr fun h => and_congr_right fun _ => ?_
  split
  next hcolon =>
    simp only [reads_bind, reads_pure]
    simp [hcolon, Reads]
  next hcolon => simp [hcolon, reads_pure]

theorem reads_selector_iff {item : Selector} :
    Reads (selector dialect s) item rest ↔
      (s.peek.kind = .integer ∧ ∃ n, index dialect s.peek = .ok n ∧
        ((s.advance.peek.kind = .colon ∧
            Reads (sliceRest dialect s.peek (some n) s.advance.advance) item rest) ∨
          (s.advance.peek.kind ≠ .colon ∧ .index s.peek n = item ∧ s.advance = rest))) ∨
      ((s.peek.kind = .singleQuoted ∨ s.peek.kind = .doubleQuoted) ∧
        ∃ name, s.peek.literalText = .ok name ∧ .name s.peek name = item ∧ s.advance = rest) ∨
      (s.peek.kind = .colon ∧ Reads (sliceRest dialect s.peek none s.advance) item rest) ∨
      (s.peek.kind = .wildcard ∧ .wildcard s.peek = item ∧ s.advance = rest) ∨
      (s.peek.kind = .filter ∧ ∃ e, Reads (expression dialect .lowest s.advance) e rest ∧
        e.checkTest dialect.signatures = .ok () ∧ .filter s.peek e = item) := by
  rw [selector]
  split
  next h =>
    rw [reads_check]
    simp only [h, reduceCtorEq, false_and, true_and, or_false, or_self]
    refine exists_congr fun n => and_congr_right fun _ => ?_
    split
    next hcolon =>
      simp only [reads_bind, reads_pure]
      simp [hcolon, Reads]
    next hcolon => simp [hcolon, reads_pure]
  next h =>
    simp only [reads_check, require_eq_ok_iff, reads_pure]
    simp [h]
  next h =>
    simp only [reads_check, require_eq_ok_iff, reads_pure]
    simp [h]
  next h =>
    simp only [reads_bind, reads_pure]
    simp [h, Reads]
  next h => simp [h, reads_ok]
  next h =>
    simp only [reads_bind, reads_require, reads_pure]
    simp [h, Reads, ← and_assoc]
  next h => simp [h, reads_fail]
  next => simp_all [reads_fail]

theorem reads_expression_iff {level : Level} {item : Expr} :
    Reads (expression dialect level s) item rest ↔ ∃ first s₁, Reads (operand dialect s) first s₁ ∧
      Reads (operations dialect level (s.peek.kind == .openParen) first s₁) item rest := by
  rw [expression]
  simp only [reads_bind, reads_pure]
  simp [Reads]

theorem reads_operations_iff {level : Level} {grouped : Bool} {left item : Expr} :
    Reads (operations dialect level grouped left s) item rest ↔
      (binds s.peek.kind level = true ∧ ((comparison? s.peek.kind).isSome && grouped) = false ∧
        ∃ next s₁, Reads (operation dialect left s.peek s.advance) next s₁ ∧
          Reads (operations dialect level false next s₁) item rest) ∨
      (binds s.peek.kind level = false ∧ left = item ∧ s = rest) := by
  rw [operations]
  split
  next h =>
    split
    next hgrouped => simp_all [reads_check, fail]
    next hgrouped =>
      simp only [reads_bind, reads_pure]
      simp_all [Reads]
  next h => simp_all [reads_ok]

theorem reads_operation_iff {left item : Expr} {operator : Token} :
    Reads (operation dialect left operator s) item rest ↔
      (∃ comparison, comparison? operator.kind = some comparison ∧ s.peek.kind ≠ .openParen ∧
        ∃ right, Reads (expression dialect .relation s) right rest ∧
          left.checkComparable dialect.signatures = .ok () ∧
          right.checkComparable dialect.signatures = .ok () ∧
          .comparison operator left comparison right = item) ∨
      (comparison? operator.kind = none ∧ ∃ right,
        Reads (expression dialect
          (if operator.kind = .conjunction then .conjunction else .disjunction) s) right rest ∧
          left.checkTest dialect.signatures = .ok () ∧
          right.checkTest dialect.signatures = .ok () ∧
          (if operator.kind = .conjunction then .conjunction operator left right
            else .disjunction operator left right) = item) := by
  rw [operation]
  split
  next comparison h =>
    split
    next hparen => simp [reads_check, fail, h, hparen]
    next hparen =>
      simp only [reads_bind, reads_require, reads_pure]
      simp [h, hparen, Reads, ← and_assoc]
  next h =>
    simp only [reads_bind, reads_require, reads_pure]
    simp [h, Reads, ← and_assoc]

theorem reads_operand_iff {item : Expr} :
    Reads (operand dialect s) item rest ↔
      ((s.peek.kind = .singleQuoted ∨ s.peek.kind = .doubleQuoted) ∧
        ∃ text, s.peek.literalText = .ok text ∧ .literal s.peek (.string text) = item ∧
          s.advance = rest) ∨
      ((s.peek.kind = .integer ∨ s.peek.kind = .decimal) ∧
        ∃ n, number s.peek = .ok n ∧ .literal s.peek (.number n) = item ∧ s.advance = rest) ∨
      (s.peek.kind = .trueWord ∧ .literal s.peek (.boolean true) = item ∧ s.advance = rest) ∨
      (s.peek.kind = .falseWord ∧ .literal s.peek (.boolean false) = item ∧ s.advance = rest) ∨
      (s.peek.kind = .nullWord ∧ .literal s.peek .null = item ∧ s.advance = rest) ∨
      (s.peek.kind = .negation ∧ ∃ e, Reads (expression dialect .unary s.advance) e rest ∧
        e.checkTest dialect.signatures = .ok () ∧ .negation s.peek e = item) ∨
      (s.peek.kind = .openParen ∧ ∃ s₁, Reads (expression dialect .lowest s.advance) item s₁ ∧
        s₁.peek.kind = .closeParen ∧ item.checkTest dialect.signatures = .ok () ∧
          s₁.advance = rest) ∨
      (s.peek.kind = .root ∧ ∃ segs, Reads (segments dialect s.advance) segs rest ∧
        .absolute s.peek segs = item) ∨
      (s.peek.kind = .current ∧ ∃ segs, Reads (segments dialect s.advance) segs rest ∧
        .relative s.peek segs = item) ∨
      (s.peek.kind = .function ∧ Reads (call dialect s.peek s.advance) item rest) := by
  rw [operand]
  split
  next h =>
    simp only [reads_check, require_eq_ok_iff, reads_pure]
    simp [h]
  next h =>
    simp only [reads_check, require_eq_ok_iff, reads_pure]
    simp [h]
  next h =>
    rw [reads_check]
    simp [reads_pure, h]
  next h =>
    rw [reads_check]
    simp [reads_pure, h]
  next h => simp [reads_ok, h]
  next h => simp [reads_ok, h]
  next h => simp [reads_ok, h]
  next h =>
    simp only [reads_bind, reads_require, reads_pure]
    simp [h, Reads, ← and_assoc]
  next h =>
    simp only [reads_bind]
    simp only [h]
    constructor
    · rintro ⟨e, s₁, hs₁, he, hrest⟩
      split at hrest
      next hclose =>
        simp only [reads_require, reads_pure] at hrest
        obtain ⟨hcheck, rfl, rfl⟩ := hrest
        simp only [reduceCtorEq, false_and, true_and, false_or, or_false, or_self]
        exact ⟨s₁, ⟨hs₁, he⟩, hclose, hcheck, rfl⟩
      · exact absurd hrest reads_error
    · simp only [reduceCtorEq, false_and, true_and, false_or, or_false, or_self]
      rintro ⟨s₁, ⟨hs₁, he⟩, hclose, hcheck, rfl⟩
      refine ⟨item, s₁, hs₁, he, ?_⟩
      rw [dif_pos hclose, reads_require]
      exact ⟨hcheck, reads_pure.2 ⟨rfl, rfl⟩⟩
  next h =>
    simp only [reads_bind, reads_pure]
    simp [h, Reads]
  next h =>
    simp only [reads_bind, reads_pure]
    simp [h, Reads]
  next h =>
    simp only [reads_bind, reads_pure]
    simp [h, Reads]
  next h => simp [h, reads_fail]
  next => simp_all [reads_fail]

theorem reads_call_iff {function : Token} {item : Expr} :
    Reads (call dialect function s) item rest ↔ s.peek.kind = .openParen ∧
      ((s.advance.peek.kind = .closeParen ∧
          checkCall dialect.signatures function function.text [] = .ok () ∧
          .call function function.text [] = item ∧ s.advance.advance = rest) ∨
        (s.advance.peek.kind ≠ .closeParen ∧ ∃ given,
          Reads (arguments dialect s.advance) given rest ∧
          checkCall dialect.signatures function function.text given = .ok () ∧
          .call function function.text given = item)) := by
  rw [call]
  split
  next h =>
    split
    next hclose =>
      simp only [reads_require, reads_pure]
      simp [h, hclose]
    next hclose =>
      simp only [reads_bind, reads_require, reads_pure]
      simp [h, hclose, Reads, ← and_assoc]
  next h => simp [h, reads_error]

theorem reads_arguments_iff {item : List Expr} :
    Reads (arguments dialect s) item rest ↔
      ∃ first s₁, Reads (expression dialect .lowest s) first s₁ ∧
        ((s₁.peek.kind = .closeParen ∧ [first] = item ∧ s₁.advance = rest) ∨
          (s₁.peek.kind = .comma ∧ s₁.advance.peek.kind ≠ .closeParen ∧
            ∃ more, Reads (arguments dialect s₁.advance) more rest ∧ first :: more = item)) := by
  rw [arguments]
  simp only [reads_bind]
  refine exists_congr fun first => exists_congr fun s₁ => ?_
  rw [Reads, ← exists_and_right]
  refine exists_congr fun h => and_congr_right fun _ => ?_
  split
  next hclose => simp [reads_pure, hclose]
  next hclose =>
    split
    next hcomma =>
      simp only [reads_require, Stream.expectNot_eq_ok_iff, reads_bind, reads_pure]
      simp [hcomma, Reads]
    next hcomma => simp [reads_error, hclose, hcomma]

theorem query_eq_ok_iff {item : Query} :
    query dialect s = .ok item ↔ s.peek.kind = .root ∧
      ∃ s₁, Reads (segments dialect s.advance) item s₁ ∧ s₁.peek.kind = .endOfQuery := by
  unfold query
  rw [bind_eq_ok_iff]
  constructor
  · rintro ⟨_, hroot, h⟩
    obtain ⟨⟨found, s₁, hs₁⟩, hfound, hend⟩ := bind_eq_ok_iff.1 h
    split at hend
    next heoq =>
      cases hend
      exact ⟨Stream.expect_eq_ok_iff.1 (require_eq_ok_iff.1 hroot), s₁, ⟨hs₁, hfound⟩, heoq⟩
    · cases hend
  · rintro ⟨hroot, s₁, ⟨hs₁, hfound⟩, hend⟩
    exact ⟨(), require_eq_ok_iff.2 (Stream.expect_eq_ok_iff.2 hroot),
      bind_eq_ok_iff.2 ⟨_, hfound, if_pos hend⟩⟩

end JsonPath.Parser
