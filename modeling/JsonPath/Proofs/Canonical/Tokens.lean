import JsonPath.Proofs.Canonical.Proper

/-!
# The tokens of canonical texts

The canonical text of a query is written by recursion, and so are its tokens. What the lexer makes
of the text are these tokens, unless there is an infinite number in it; then it makes nothing of it.
-/

namespace JsonPath

open Lexer (Lexes LexesIf Starts Stops)

def integerShape (n : Int) : Shape := (.integer, Text.ofInt n)

def Comparison.kind : Comparison → TokenKind
  | .equal => .equals
  | .notEqual => .notEquals
  | .less => .lessThan
  | .lessOrEqual => .lessOrEqual
  | .greater => .greaterThan
  | .greaterOrEqual => .greaterOrEqual

def Comparison.shape (operator : Comparison) : Shape := (operator.kind, operator.symbol)

mutual

/-- The tokens of the canonical text. -/
def Expr.shapes : Expr → List Shape
  | .literal _ literal => [literal.shape]
  | .negation _ operand => (.negation, "!") :: operand.shapes
  | .conjunction _ left right =>
    (.openParen, "(") ::
      (left.shapes ++ ((.conjunction, "&&") : Shape) ::
        (right.shapes ++ [((.closeParen, ")") : Shape)]))
  | .disjunction _ left right =>
    (.openParen, "(") ::
      (left.shapes ++ ((.disjunction, "||") : Shape) ::
        (right.shapes ++ [((.closeParen, ")") : Shape)]))
  | .comparison _ left operator right => left.shapes ++ operator.shape :: right.shapes
  | .relative _ segments => (.current, "@") :: segmentsShapes segments
  | .absolute _ segments => (.root, "$") :: segmentsShapes segments
  | .call _ name arguments =>
    (.function, name) :: (.openParen, "(") ::
      (argumentShapes arguments ++ [((.closeParen, ")") : Shape)])

def argumentShapes : List Expr → List Shape
  | [] => []
  | [argument] => argument.shapes
  | argument :: rest => argument.shapes ++ ((.comma, ",") : Shape) :: argumentShapes rest

def Selector.shapes : Selector → List Shape
  | .name _ name => [nameShape name]
  | .index _ index => [integerShape index]
  | .wildcard _ => [(.wildcard, "*")]
  | .slice _ start? stop? step? =>
    (start?.map integerShape).toList ++ ((.colon, ":") : Shape) ::
      ((stop?.map integerShape).toList ++ [((.colon, ":") : Shape), integerShape (step?.getD 1)])
  | .filter _ expression => (.filter, "?") :: expression.shapes

def selectorShapes : List Selector → List Shape
  | [] => []
  | [selector] => selector.shapes
  | selector :: rest => selector.shapes ++ ((.comma, ",") : Shape) :: selectorShapes rest

def Segment.shapes : Segment → List Shape
  | .child _ selectors =>
    (.openSquare, "[") ::
      (selectorShapes selectors ++ [((.closeSquare, "]") : Shape)])
  | .descendant _ selectors =>
    (.doubleDot, "..") :: (.openSquare, "[") ::
      (selectorShapes selectors ++ [((.closeSquare, "]") : Shape)])

def segmentsShapes : List Segment → List Shape
  | [] => []
  | segment :: rest => segment.shapes ++ segmentsShapes rest

end

mutual

/-- Whether all numbers in it are finite. -/
def Expr.isFinite : Expr → Bool
  | .literal _ literal => literal.isFinite
  | .negation _ operand => operand.isFinite
  | .conjunction _ left right => left.isFinite && right.isFinite
  | .disjunction _ left right => left.isFinite && right.isFinite
  | .comparison _ left _ right => left.isFinite && right.isFinite
  | .relative _ segments => segmentsAreFinite segments
  | .absolute _ segments => segmentsAreFinite segments
  | .call _ _ arguments => argumentsAreFinite arguments

def argumentsAreFinite : List Expr → Bool
  | [] => true
  | argument :: rest => argument.isFinite && argumentsAreFinite rest

def Selector.isFinite : Selector → Bool
  | .filter _ expression => expression.isFinite
  | _ => true

def selectorsAreFinite : List Selector → Bool
  | [] => true
  | selector :: rest => selector.isFinite && selectorsAreFinite rest

def Segment.isFinite : Segment → Bool
  | .child _ selectors => selectorsAreFinite selectors
  | .descendant _ selectors => selectorsAreFinite selectors

def segmentsAreFinite : List Segment → Bool
  | [] => true
  | segment :: rest => segment.isFinite && segmentsAreFinite rest

end

/-! ### How canonical texts start -/

theorem starts_append {s t : Text} (h : Starts s.toList) : Starts (s ++ t).toList := by
  rw [Text.toList_append]
  exact h.append

theorem starts_of_spells {n : Numeral} {cs : List CodePoint} (h : n.Spells cs) : Starts cs := by
  obtain ⟨c, more, rfl, hc⟩ := Lexer.exists_head_of_spells h
  rcases Bool.or_eq_true_iff.1 hc with hdigit | hminus
  · exact ⟨c, more, rfl, Lexer.not_isBlank_of_isDigit hdigit,
      Numeral.ne_of_isDigit hdigit (by decide)⟩
  · obtain rfl : c = '-' := eq_of_beq hminus
    exact ⟨'-', more, rfl, rfl, by decide⟩

theorem starts_integer (n : Int) : Starts (Text.ofInt n).toList :=
  starts_of_spells (Numeral.spells_ofInteger n)

theorem Literal.starts_text (literal : Literal) (h : literal.Proper) :
    Starts literal.text.toList := by
  match literal, h with
  | .null, _ => exact ⟨'n', _, rfl, rfl, by decide⟩
  | .boolean true, _ => exact ⟨'t', _, rfl, rfl, by decide⟩
  | .boolean false, _ => exact ⟨'f', _, rfl, rfl, by decide⟩
  | .number (.integer n), _ => exact starts_integer n
  | .number (.double (.finite negative m)), _ =>
    obtain ⟨n, hspells, -⟩ := Layout.reads_magnitude .json negative m
    rw [← Layout.toList_double_finite] at hspells
    exact starts_of_spells hspells
  | .number (.double (.infinite true)), _ => exact ⟨'-', _, rfl, rfl, by decide⟩
  | .number (.double (.infinite false)), _ => exact ⟨'I', _, rfl, rfl, by decide⟩
  | .string s, _ =>
    refine ⟨'"', s.toList.flatMap Text.jsonChar ++ [('"' : CodePoint)], ?_, rfl, by decide⟩
    exact Text.toList_ofList

theorem Expr.starts_text {dialect : Dialect} : ∀ e : Expr, e.Proper dialect → Starts e.text.toList
  | .literal _ value, h => value.starts_text h
  | .negation _ _, _ => starts_append ⟨'!', [], rfl, rfl, by decide⟩
  | .conjunction _ _ _, _ | .disjunction _ _ _, _ =>
    starts_append (starts_append (starts_append (starts_append ⟨'(', [], rfl, rfl, by decide⟩)))
  | .comparison _ left _ _, h =>
    starts_append (starts_append (starts_append (starts_append (starts_text left h.1))))
  | .relative _ _, _ => starts_append ⟨'@', [], rfl, rfl, by decide⟩
  | .absolute _ _, _ => starts_append ⟨'$', [], rfl, rfl, by decide⟩
  | .call _ name _, h => by
    obtain ⟨c, more, hname, hfirst, -⟩ := h.1
    have hstarts : Starts name.toList :=
      ⟨c, more, hname, Lexer.not_isBlank_of_isLower hfirst, Lexer.ne_of_isLower hfirst (by decide)⟩
    exact starts_append (starts_append (starts_append hstarts))

theorem Selector.starts_text (s : Selector) : Starts s.text.toList := by
  cases s with
  | name _ name =>
    rw [Selector.text]
    exact ⟨'\'', _, Text.toList_ofList, rfl, by decide⟩
  | index _ index =>
    rw [Selector.text]
    exact starts_integer index
  | wildcard =>
    rw [Selector.text]
    exact ⟨'*', [], rfl, rfl, by decide⟩
  | slice _ start? stop? step? =>
    rw [Selector.text]
    refine starts_append (starts_append (starts_append ?_))
    cases start? with
    | none =>
      rw [Option.map_none, Option.getD_none, Text.empty_append]
      exact ⟨':', [], rfl, rfl, by decide⟩
    | some start => exact starts_append (starts_integer start)
  | filter _ e =>
    rw [Selector.text]
    exact starts_append ⟨'?', [], rfl, rfl, by decide⟩

theorem starts_argumentTexts {dialect : Dialect} {e : Expr} (h : e.Proper dialect)
    (more : List Expr) : Starts (Text.intercalate ", " (argumentTexts (e :: more))).toList := by
  cases more with
  | nil =>
    rw [argumentTexts, argumentTexts, Text.intercalate_singleton]
    exact e.starts_text h
  | cons next more =>
    rw [argumentTexts, argumentTexts, Text.intercalate_cons_cons]
    exact starts_append (starts_append (e.starts_text h))

theorem starts_selectorTexts (sel : Selector) (more : List Selector) :
    Starts (Text.intercalate ", " (selectorTexts (sel :: more))).toList := by
  cases more with
  | nil =>
    rw [selectorTexts, selectorTexts, Text.intercalate_singleton]
    exact sel.starts_text
  | cons next more =>
    rw [selectorTexts, selectorTexts, Text.intercalate_cons_cons]
    exact starts_append (starts_append sel.starts_text)

/-! ### What canonical texts lex to -/

theorem lexes_bound (i? : Option Int) {rest : List CodePoint} :
    Lexes ((i?.map Text.ofInt).getD "").toList (i?.map integerShape).toList (':' :: rest) := by
  cases i? with
  | none => exact Lexer.lexes_nil
  | some i =>
    have hrest : Stops (':' :: rest) := by simp [Stops]
    exact lexes_integer i hrest.endsNumber

theorem Comparison.lexes_symbol (operator : Comparison) {rest : List CodePoint} :
    Lexes (' ' :: operator.symbol.toList) [operator.shape] (' ' :: rest) := by
  cases operator <;> exact Lexer.lexes_operator rfl (by decide) (by decide)

section

variable {l r : Bool} {a b rest : List CodePoint} {ss ts : List Shape}

theorem lexesIf_infix {operator : List CodePoint} {shape : Shape}
    (ha : ∀ rest, Stops rest → LexesIf l a ss rest)
    (hoperator : Lexes (' ' :: operator) [shape] (((' ' : CodePoint) :: b) ++ rest))
    (hstarts : Starts b)
    (hb : LexesIf r b ts rest) :
    LexesIf (l && r) (a ++ ((' ' : CodePoint) :: operator ++ (' ' : CodePoint) :: b))
      (ss ++ shape :: ts) rest := by
  have hrest : Stops (((' ' : CodePoint) :: operator ++ (' ' : CodePoint) :: b) ++ rest) := by
    simp [Stops]
  exact (ha _ hrest).append (hoperator.append_lexesIf (hb.blank hstarts))

/-- What stands in parentheses. -/
theorem lexesIf_closed (ha : ∀ rest, Stops rest → LexesIf r a ss rest) :
    LexesIf r (("(" : Text).toList ++ (a ++ (")" : Text).toList))
      ((.openParen, "(") :: (ss ++ [((.closeParen, ")") : Shape)])) rest := by
  have hopening : Lexes ("(" : Text).toList [(.openParen, "(")]
    ((a ++ (")" : Text).toList) ++ rest) :=
    Lexer.lexes_symbol rfl (by decide) (by decide)
  have hclosing : Lexes (")" : Text).toList [(.closeParen, ")")] rest :=
    Lexer.lexes_symbol rfl (by decide) (by decide)
  have hrest : Stops ((")" : Text).toList ++ rest) := by simp [Stops]
  exact hopening.append_lexesIf ((ha _ hrest).append_lexes hclosing)

/-- What stands in brackets. -/
theorem lexesIf_bracketed (ha : ∀ rest, Stops rest → LexesIf r a ss rest) :
    LexesIf r (("[" : Text).toList ++ (a ++ ("]" : Text).toList))
      ((.openSquare, "[") :: (ss ++ [((.closeSquare, "]") : Shape)])) rest := by
  have hopening : Lexes ("[" : Text).toList [(.openSquare, "[")]
    ((a ++ ("]" : Text).toList) ++ rest) :=
    Lexer.lexes_symbol rfl (by decide) (by decide)
  have hclosing : Lexes ("]" : Text).toList [(.closeSquare, "]")] rest :=
    Lexer.lexes_symbol rfl (by decide) (by decide)
  have hrest : Stops (("]" : Text).toList ++ rest) := by simp [Stops]
  exact hopening.append_lexesIf ((ha _ hrest).append_lexes hclosing)

/-- What is separated from the rest of a list by a comma. -/
theorem lexesIf_listed (ha : ∀ rest, Stops rest → LexesIf l a ss rest) (hstarts : Starts b)
    (hb : LexesIf r b ts rest) :
    LexesIf (l && r) (a ++ ((", " : Text).toList ++ b))
      (ss ++ ((.comma, ",") : Shape) :: ts) rest := by
  have hcomma : Lexes ("," : Text).toList [(.comma, ",")] (((' ' : CodePoint) :: b) ++ rest) :=
    Lexer.lexes_symbol rfl (by decide) (by decide)
  have hrest : Stops (((", " : Text).toList ++ b) ++ rest) := by simp [Stops]
  exact (ha _ hrest).append (hcomma.append_lexesIf (hb.blank hstarts))

end

mutual

theorem Expr.lexesIf_text {dialect : Dialect} : ∀ e : Expr, e.Proper dialect →
    ∀ rest, Stops rest → LexesIf e.isFinite e.text.toList e.shapes rest
  | .literal _ value, h, _, hrest => value.lexesIf_text h hrest
  | .negation _ operand, h, rest, hrest => by
    have hoperand := Expr.lexesIf_text operand h.1 rest hrest
    simp only [Expr.text, Text.toList_append]
    exact (Lexer.lexes_negation (operand.starts_text h.1).append).append_lexesIf hoperand
  | .conjunction _ left right, h, rest, _ => by
    have hinfix (rest : List CodePoint) (hrest : Stops rest) :=
      lexesIf_infix (Expr.lexesIf_text left h.1) (Lexer.lexes_operator rfl (by decide) (by decide) :
        Lexes (' ' :: ("&&" : Text).toList) [(.conjunction, "&&")] _) (right.starts_text h.2.1)
        (Expr.lexesIf_text right h.2.1 rest hrest)
    have hclosed : LexesIf _ _ _ rest := lexesIf_closed hinfix
    simpa [Expr.text, Expr.shapes, Expr.isFinite] using hclosed
  | .disjunction _ left right, h, rest, _ => by
    have hinfix (rest : List CodePoint) (hrest : Stops rest) :=
      lexesIf_infix (Expr.lexesIf_text left h.1) (Lexer.lexes_operator rfl (by decide) (by decide) :
        Lexes (' ' :: ("||" : Text).toList) [(.disjunction, "||")] _) (right.starts_text h.2.1)
        (Expr.lexesIf_text right h.2.1 rest hrest)
    have hclosed : LexesIf _ _ _ rest := lexesIf_closed hinfix
    simpa [Expr.text, Expr.shapes, Expr.isFinite] using hclosed
  | .comparison _ left operator right, h, rest, hrest => by
    have hinfix := lexesIf_infix (Expr.lexesIf_text left h.1) operator.lexes_symbol
      (right.starts_text h.2) (Expr.lexesIf_text right h.2 rest hrest)
    simpa [Expr.text, Expr.shapes, Expr.isFinite] using hinfix
  | .relative _ segments, h, rest, _ => by
    have hsegments := lexesIf_segmentsText segments h rest
    have hcurrent : Lexes ("@" : Text).toList [(.current, "@")]
      ((segmentsText segments).toList ++ rest) :=
      Lexer.lexes_symbol rfl (by decide) (by decide)
    simp only [Expr.text, Text.toList_append]
    exact hcurrent.append_lexesIf hsegments
  | .absolute _ segments, h, rest, _ => by
    have hsegments := lexesIf_segmentsText segments h rest
    have hroot : Lexes ("$" : Text).toList [(.root, "$")]
      ((segmentsText segments).toList ++ rest) :=
      Lexer.lexes_symbol rfl (by decide) (by decide)
    simp only [Expr.text, Text.toList_append]
    exact hroot.append_lexesIf hsegments
  | .call _ name arguments, h, rest, _ => by
    have harguments : LexesIf _ _ _ rest := lexesIf_closed (lexesIf_argumentTexts arguments h.2)
    have hname (rest : List CodePoint) : Lexes name.toList [(.function, name)] ('(' :: rest) :=
      Lexer.lexes_function h.1
    simp only [Expr.text, Text.toList_append, List.append_assoc]
    exact (hname _).append_lexesIf harguments

theorem lexesIf_argumentTexts {dialect : Dialect} : ∀ arguments : List Expr,
    argumentsProper dialect arguments → ∀ rest, Stops rest →
    LexesIf (argumentsAreFinite arguments) (Text.intercalate ", " (argumentTexts arguments)).toList
      (argumentShapes arguments) rest
  | [], _, _, _ => Lexer.lexes_nil
  | [e], h, rest, hrest => by
    rw [argumentTexts, argumentTexts, Text.intercalate_singleton, argumentsAreFinite,
      argumentsAreFinite, Bool.and_true]
    exact Expr.lexesIf_text e h.1 rest hrest
  | e :: next :: more, h, rest, hrest => by
    have hmore := lexesIf_argumentTexts (next :: more) h.2 rest hrest
    rw [argumentTexts, Text.intercalate_cons_of_ne_nil (by simp [argumentTexts]),
      Text.toList_append, Text.toList_append, List.append_assoc]
    exact lexesIf_listed (Expr.lexesIf_text e h.1) (starts_argumentTexts h.2.1 more) hmore

theorem Selector.lexesIf_text {dialect : Dialect} : ∀ s : Selector, s.Proper dialect →
    ∀ rest, Stops rest → LexesIf s.isFinite s.text.toList s.shapes rest
  | .name _ name, _, _, _ => lexes_normalizedName name
  | .index _ index, _, _, hrest => lexes_integer index hrest.endsNumber
  | .wildcard _, _, rest, _ => by
    have hwildcard : Lexes ("*" : Text).toList [(.wildcard, "*")] rest :=
      Lexer.lexes_symbol rfl (by decide) (by decide)
    rw [Selector.text]
    exact hwildcard
  | .slice _ start? stop? step?, _, rest, hrest => by
    have hcolon (rest : List CodePoint) : Lexes (":" : Text).toList [(.colon, ":")] rest :=
      Lexer.lexes_symbol rfl (by decide) (by decide)
    have hstep := (hcolon _).append (lexes_integer (step?.getD 1) hrest.endsNumber)
    have hstop := (hcolon _).append ((lexes_bound stop?).append hstep)
    simp only [Selector.text, Text.toList_append, List.append_assoc]
    exact (lexes_bound start?).append hstop
  | .filter _ e, h, rest, hrest => by
    have hmark : Lexes ("?" : Text).toList [(.filter, "?")] (e.text.toList ++ rest) :=
      Lexer.lexes_symbol rfl (by decide) (by decide)
    simp only [Selector.text, Text.toList_append]
    exact hmark.append_lexesIf (Expr.lexesIf_text e h.1 rest hrest)

theorem lexesIf_selectorTexts {dialect : Dialect} : ∀ selectors : List Selector,
    selectorsProper dialect selectors → ∀ rest, Stops rest →
    LexesIf (selectorsAreFinite selectors) (Text.intercalate ", " (selectorTexts selectors)).toList
      (selectorShapes selectors) rest
  | [], _, _, _ => Lexer.lexes_nil
  | [sel], h, rest, hrest => by
    rw [selectorTexts, selectorTexts, Text.intercalate_singleton, selectorsAreFinite,
      selectorsAreFinite, Bool.and_true]
    exact Selector.lexesIf_text sel h.1 rest hrest
  | sel :: next :: more, h, rest, hrest => by
    have hmore := lexesIf_selectorTexts (next :: more) h.2 rest hrest
    rw [selectorTexts, Text.intercalate_cons_of_ne_nil (by simp [selectorTexts]),
      Text.toList_append, Text.toList_append, List.append_assoc]
    exact lexesIf_listed (Selector.lexesIf_text sel h.1) (starts_selectorTexts next more) hmore

theorem Segment.lexesIf_text {dialect : Dialect} : ∀ s : Segment, s.Proper dialect →
    ∀ rest, LexesIf s.isFinite s.text.toList s.shapes rest
  | .child _ selectors, h, rest => by
    simp only [Segment.text, Text.toList_append, List.append_assoc]
    exact lexesIf_bracketed (lexesIf_selectorTexts selectors h.2)
  | .descendant _ selectors, h, rest => by
    have hselectors : LexesIf _ _ _ rest :=
      lexesIf_bracketed (lexesIf_selectorTexts selectors h.2)
    have htext : ("..[" : Text).toList = (".." : Text).toList ++ ("[" : Text).toList := rfl
    simp only [Segment.text, Text.toList_append, List.append_assoc, htext]
    exact Lexer.lexes_dots.append_lexesIf hselectors

theorem lexesIf_segmentsText {dialect : Dialect} : ∀ segments : List Segment,
    segmentsProper dialect segments → ∀ rest,
    LexesIf (segmentsAreFinite segments) (segmentsText segments).toList (segmentsShapes segments)
      rest
  | [], _, _ => Lexer.lexes_nil
  | segment :: more, h, rest => by
    have hmore := lexesIf_segmentsText more h.2 rest
    have hsegment := segment.lexesIf_text h.1 ((segmentsText more).toList ++ rest)
    simp only [segmentsText, Text.toList_append]
    exact hsegment.append hmore

end

/-- The canonical text of a query comes to its tokens, or to none if a number is infinite. -/
theorem Query.ofQuery_text {dialect : Dialect} {query : Query} (h : segmentsProper dialect query) :
    if segmentsAreFinite query then
      ∃ ts final, Token.ofQuery query.text = .ok (ts ++ [final]) ∧
        final.kind = .endOfQuery ∧
          ts.map Token.shape = ((.root, "$") : Shape) :: segmentsShapes query
    else ∃ error, Token.ofQuery query.text = .error error := by
  have hroot : Lexes ("$" : Text).toList [(.root, "$")] ((segmentsText query).toList ++ []) :=
    Lexer.lexes_symbol rfl (by decide) (by decide)
  have hlexes := hroot.append_lexesIf (lexesIf_segmentsText query h [])
  have htext : query.text.toList = ("$" : Text).toList ++ (segmentsText query).toList := by
    rw [Query.text, Text.toList_append]
  rw [← htext] at hlexes
  unfold LexesIf at hlexes
  split at hlexes
  next hfinite =>
    rw [if_pos hfinite]
    exact hlexes.ofQuery htext
  next hfinite =>
    obtain ⟨error, herror⟩ := hlexes query.text 0
    have hquery : Token.ofQuery query.text =
        Lexer.tokensFrom query.text none 0 query.text.toList := by
      unfold Token.ofQuery
      rw [htext]
      rfl
    rw [if_neg hfinite, hquery]
    rw [List.append_nil] at herror
    exact ⟨error, herror⟩

end JsonPath
