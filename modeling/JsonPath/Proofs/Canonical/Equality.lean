import JsonPath.Proofs.Parser.Moved
import JsonPath.Proofs.Parser.Spacing

/-!
# Literals are determined by their tokens

Equality of queries compares literals by value and across types, so that `1`, `1.0` and `true`, or
`0.0` and `-0.0`, are not told apart by it; but it compares the tokens as well. In what is parsed
each literal is the one that its token writes, so two parsed queries that are the same differ in the
places of their tokens only. Whether parsed or not, two queries that are the same have the same
hash.
-/

namespace JsonPath

open Grammar (Derives Writes)

/-! ### Hashes -/

theorem Token.shape_of_same {t u : Token} (h : t.same u = true) : t.SameShape u := by
  simp only [same, Bool.and_eq_true, beq_iff_eq] at h
  exact Prod.ext h.1 h.2

section

variable {Hash : Type} (hashing : Hashing Hash)

theorem Token.hash_of_same {t u : Token} (h : t.same u = true) :
    t.hash hashing = u.hash hashing := by
  obtain ⟨hkind, htext⟩ := Prod.mk.inj (shape_of_same h)
  rw [hash, hash, hkind, htext]

mutual

theorem Expr.hash_of_same : ∀ (e e' : Expr), e.same e' = true → e.hash hashing = e'.hash hashing
  | .literal _ _, e', h => by
    cases e' <;> simp only [Expr.same, Bool.and_eq_true, Bool.false_eq_true] at h
    rw [Expr.hash, Expr.hash, Token.hash_of_same hashing h.1, hashing.literal_eq h.2]
  | .negation _ e, e', h => by
    cases e' <;> simp only [Expr.same, Bool.and_eq_true, Bool.false_eq_true] at h
    rw [Expr.hash, Expr.hash, Token.hash_of_same hashing h.1, Expr.hash_of_same e _ h.2]
  | .conjunction _ left right, e', h | .disjunction _ left right, e', h => by
    cases e' <;> simp only [Expr.same, Bool.and_eq_true, Bool.false_eq_true] at h
    rw [Expr.hash, Expr.hash, Token.hash_of_same hashing h.1.1, Expr.hash_of_same left _ h.1.2,
      Expr.hash_of_same right _ h.2]
  | .comparison _ left _ right, e', h => by
    cases e' <;> simp only [Expr.same, Bool.and_eq_true, Bool.false_eq_true] at h
    rw [Expr.hash, Expr.hash, Token.hash_of_same hashing h.1.1.1, eq_of_beq h.1.2,
      Expr.hash_of_same left _ h.1.1.2, Expr.hash_of_same right _ h.2]
  | .relative _ segs, e', h | .absolute _ segs, e', h => by
    cases e' <;> simp only [Expr.same, Bool.and_eq_true, Bool.false_eq_true] at h
    rw [Expr.hash, Expr.hash, Token.hash_of_same hashing h.1, segmentHashes_of_same segs _ h.2]
  | .call _ _ given, e', h => by
    cases e' <;> simp only [Expr.same, Bool.and_eq_true, Bool.false_eq_true] at h
    rw [Expr.hash, Expr.hash, Token.hash_of_same hashing h.1.1, eq_of_beq h.1.2,
      argumentHashes_of_same given _ h.2]

theorem argumentHashes_of_same : ∀ (given given' : List Expr), sameArguments given given' = true →
    argumentHashes hashing given = argumentHashes hashing given'
  | [], given', h => by
    cases given' <;> simp only [sameArguments, Bool.false_eq_true] at h
    rfl
  | e :: given, given', h => by
    cases given' <;> simp only [sameArguments, Bool.and_eq_true, Bool.false_eq_true] at h
    rw [argumentHashes, argumentHashes, Expr.hash_of_same e _ h.1,
      argumentHashes_of_same given _ h.2]

theorem Selector.hash_of_same : ∀ (sel sel' : Selector), sel.same sel' = true →
    sel.hash hashing = sel'.hash hashing
  | .name _ _, sel', h | .index _ _, sel', h => by
    cases sel' <;> simp only [Selector.same, Bool.and_eq_true, Bool.false_eq_true] at h
    rw [Selector.hash, Selector.hash, Token.hash_of_same hashing h.1, eq_of_beq h.2]
  | .wildcard _, sel', h => by
    cases sel' <;> simp only [Selector.same, Bool.false_eq_true] at h
    rw [Selector.hash, Selector.hash, Token.hash_of_same hashing h]
  | .slice _ _ _ _, sel', h => by
    cases sel' <;> simp only [Selector.same, Bool.and_eq_true, Bool.false_eq_true] at h
    rw [Selector.hash, Selector.hash, Token.hash_of_same hashing h.1.1.1, eq_of_beq h.1.1.2,
      eq_of_beq h.1.2, eq_of_beq h.2]
  | .filter _ e, sel', h => by
    cases sel' <;> simp only [Selector.same, Bool.and_eq_true, Bool.false_eq_true] at h
    rw [Selector.hash, Selector.hash, Token.hash_of_same hashing h.1, Expr.hash_of_same e _ h.2]

theorem selectorHashes_of_same : ∀ (sels sels' : List Selector),
    sameSelectors sels sels' = true → selectorHashes hashing sels = selectorHashes hashing sels'
  | [], sels', h => by
    cases sels' <;> simp only [sameSelectors, Bool.false_eq_true] at h
    rfl
  | sel :: sels, sels', h => by
    cases sels' <;> simp only [sameSelectors, Bool.and_eq_true, Bool.false_eq_true] at h
    rw [selectorHashes, selectorHashes, Selector.hash_of_same sel _ h.1,
      selectorHashes_of_same sels _ h.2]

theorem Segment.hash_of_same : ∀ (seg seg' : Segment), seg.same seg' = true →
    seg.hash hashing = seg'.hash hashing
  | .child _ sels, seg', h | .descendant _ sels, seg', h => by
    cases seg' <;> simp only [Segment.same, Bool.and_eq_true, Bool.false_eq_true] at h
    rw [Segment.hash, Segment.hash, Token.hash_of_same hashing h.1,
      selectorHashes_of_same sels _ h.2]

theorem segmentHashes_of_same : ∀ (segs segs' : List Segment),
    sameSegments segs segs' = true → segmentHashes hashing segs = segmentHashes hashing segs'
  | [], segs', h => by
    cases segs' <;> simp only [sameSegments, Bool.false_eq_true] at h
    rfl
  | seg :: segs, segs', h => by
    cases segs' <;> simp only [sameSegments, Bool.and_eq_true, Bool.false_eq_true] at h
    rw [segmentHashes, segmentHashes, Segment.hash_of_same seg _ h.1,
      segmentHashes_of_same segs _ h.2]

end

theorem Query.hash_of_same {p q : Query} (h : p.same q = true) :
    p.hash hashing = q.hash hashing := by
  rw [hash, hash, segmentHashes_of_same hashing p q h]

/-- A set tells queries apart as equality does, whatever the hashes are. -/
theorem Query.distinct_eq [DecidableEq Hash] (p q : Query) :
    p.distinct hashing q = if p.same q then 1 else 2 :=
  if_congr ⟨And.right, fun h => ⟨Query.hash_of_same hashing h, h⟩⟩ rfl rfl

end

/-! ### Literals and their tokens -/

mutual

/-- Every literal in the expression is the one that its token writes. -/
def Expr.IsWritten : Expr → Prop
  | .literal token literal => Writes token literal
  | .negation _ operand => operand.IsWritten
  | .conjunction _ left right => left.IsWritten ∧ right.IsWritten
  | .disjunction _ left right => left.IsWritten ∧ right.IsWritten
  | .comparison _ left _ right => left.IsWritten ∧ right.IsWritten
  | .relative _ segments => segmentsAreWritten segments
  | .absolute _ segments => segmentsAreWritten segments
  | .call _ _ arguments => argumentsAreWritten arguments

def argumentsAreWritten : List Expr → Prop
  | [] => True
  | argument :: rest => argument.IsWritten ∧ argumentsAreWritten rest

def Selector.IsWritten : Selector → Prop
  | .filter _ expression => expression.IsWritten
  | _ => True

def selectorsAreWritten : List Selector → Prop
  | [] => True
  | selector :: rest => selector.IsWritten ∧ selectorsAreWritten rest

def Segment.IsWritten : Segment → Prop
  | .child _ selectors => selectorsAreWritten selectors
  | .descendant _ selectors => selectorsAreWritten selectors

def segmentsAreWritten : List Segment → Prop
  | [] => True
  | segment :: rest => segment.IsWritten ∧ segmentsAreWritten rest

end

def Grammar.Nonterminal.IsWritten : (n : Nonterminal) → n.Tree → Prop
  | .query, segs | .segments, segs => segmentsAreWritten segs
  | .segment, seg => seg.IsWritten
  | .shorthand, sels | .bracketed, sels | .selectors, sels => selectorsAreWritten sels
  | .selector, sel => sel.IsWritten
  | .arguments, given => argumentsAreWritten given
  | .disjunction, e | .conjunction, e | .basic, e | .unary, e | .comparable, e | .literal, e
  | .path, e | .call, e | .argument, e => e.IsWritten

theorem Grammar.Derives.isWritten {dialect : Dialect} {n : Nonterminal} {ts : List Token}
    {tree : n.Tree} (h : Derives dialect n ts tree) : Nonterminal.IsWritten n tree := by
  induction h with
  | noSegments | name | wildcard | index | slice | emptyCall => trivial
  | member | anyMember => exact ⟨trivial, trivial⟩
  | literal h => exact h
  | lastSelector _ ih | lastArgument _ ih => exact ⟨ih, trivial⟩
  | moreSegments _ _ ih ihMore | moreSelectors _ _ _ ih ihMore | moreArguments _ _ _ ih ihMore
  | disjunction _ _ _ _ _ ih ihMore | conjunction _ _ _ _ _ ih ihMore
  | comparison _ _ _ ih ihMore => exact ⟨ih, ihMore⟩
  | query _ _ ih | child _ _ ih | descendant _ _ ih | childBracketed _ ih
  | descendantBracketed _ _ ih | bracketed _ _ _ ih | filter _ _ _ ih | oneConjunction _ ih
  | oneBasic _ ih | oneUnary _ ih | negation _ _ _ ih | group _ _ _ _ ih | unaryPath _ ih
  | unaryCall _ ih | comparableLiteral _ ih | comparablePath _ _ ih | comparableCall _ _ ih
  | absolute _ _ ih | relative _ _ ih | call _ _ _ _ _ ih | literalArgument _ ih
  | logicalArgument _ ih => exact ih

theorem Numeral.Spells.unique {n m : Numeral} {text : List CodePoint} (h : n.Spells text)
    (h' : m.Spells text) : n = m := by
  have hends : EndsNumber [] := by simp [EndsNumber]
  have hscan := scan?_of_spells h hends
  have hscan' := scan?_of_spells h' hends
  exact congrArg Prod.fst (Option.some.inj (hscan.symm.trans hscan'))

theorem Token.literalText_of_shape {t u : Token} (h : t.SameShape u) {a b : Text}
    (ha : t.literalText = .ok a) (hb : u.literalText = .ok b) : a = b := by
  obtain ⟨hkind, htext⟩ := Prod.mk.inj h
  obtain ⟨cs, rfl, hcs⟩ := Grammar.literalText_eq_ok_iff.1 ha
  obtain ⟨ds, rfl, hds⟩ := Grammar.literalText_eq_ok_iff.1 hb
  rw [← hkind, ← htext, hcs] at hds
  rw [Except.ok.inj hds]

/-- Tokens of one kind and text write the same literal. -/
theorem Grammar.Writes.unique {t u : Token} {a b : Literal} (h : Writes t a) (h' : Writes u b)
    (hshape : t.SameShape u) : a = b := by
  obtain ⟨hkind, htext⟩ := Prod.mk.inj hshape
  cases h with
  | string hk hs =>
    cases h' with
    | string _ hs' => rw [Token.literalText_of_shape hshape hs hs']
    | _ => grind
  | integer hk _ hn =>
    cases h' with
    | integer _ _ hn' => rw [hn.unique (htext ▸ hn')]
    | _ => grind
  | decimal hk _ hn =>
    cases h' with
    | decimal _ _ hn' => rw [hn.unique (htext ▸ hn')]
    | _ => grind
  | true | false | null => cases h' <;> grind

/-! ### Queries that are the same -/

mutual

theorem Expr.mirrors_of_same : ∀ (e e' : Expr), e.same e' = true → e.IsWritten → e'.IsWritten →
    e.Mirrors Token.SameShape e'
  | .literal _ _, e', h, hw, hw' => by
    cases e' <;> simp only [Expr.same, Bool.and_eq_true, Bool.false_eq_true] at h
    obtain rfl := hw.unique hw' (Token.shape_of_same h.1)
    exact .literal (Token.shape_of_same h.1)
  | .negation _ e, e', h, hw, hw' => by
    cases e' <;> simp only [Expr.same, Bool.and_eq_true, Bool.false_eq_true] at h
    exact .negation (Token.shape_of_same h.1) (Expr.mirrors_of_same e _ h.2 hw hw')
  | .conjunction _ left right, e', h, hw, hw' => by
    cases e' <;> simp only [Expr.same, Bool.and_eq_true, Bool.false_eq_true] at h
    exact .conjunction (Token.shape_of_same h.1.1)
      (Expr.mirrors_of_same left _ h.1.2 hw.1 hw'.1)
      (Expr.mirrors_of_same right _ h.2 hw.2 hw'.2)
  | .disjunction _ left right, e', h, hw, hw' => by
    cases e' <;> simp only [Expr.same, Bool.and_eq_true, Bool.false_eq_true] at h
    exact .disjunction (Token.shape_of_same h.1.1)
      (Expr.mirrors_of_same left _ h.1.2 hw.1 hw'.1)
      (Expr.mirrors_of_same right _ h.2 hw.2 hw'.2)
  | .comparison _ left _ right, e', h, hw, hw' => by
    cases e' <;> simp only [Expr.same, Bool.and_eq_true, Bool.false_eq_true] at h
    obtain rfl := eq_of_beq h.1.2
    exact .comparison (Token.shape_of_same h.1.1.1)
      (Expr.mirrors_of_same left _ h.1.1.2 hw.1 hw'.1)
      (Expr.mirrors_of_same right _ h.2 hw.2 hw'.2)
  | .relative _ segs, e', h, hw, hw' => by
    cases e' <;> simp only [Expr.same, Bool.and_eq_true, Bool.false_eq_true] at h
    exact .relative (Token.shape_of_same h.1) (segmentsMirror_of_same segs _ h.2 hw hw')
  | .absolute _ segs, e', h, hw, hw' => by
    cases e' <;> simp only [Expr.same, Bool.and_eq_true, Bool.false_eq_true] at h
    exact .absolute (Token.shape_of_same h.1) (segmentsMirror_of_same segs _ h.2 hw hw')
  | .call _ _ given, e', h, hw, hw' => by
    cases e' <;> simp only [Expr.same, Bool.and_eq_true, Bool.false_eq_true] at h
    obtain rfl := eq_of_beq h.1.2
    exact .call (Token.shape_of_same h.1.1) (argumentsMirror_of_same given _ h.2 hw hw')

theorem argumentsMirror_of_same : ∀ (given given' : List Expr), sameArguments given given' = true →
    argumentsAreWritten given → argumentsAreWritten given' →
      ArgumentsMirror Token.SameShape given given'
  | [], given', h, _, _ => by
    cases given' <;> simp only [sameArguments, Bool.false_eq_true] at h
    exact .nil
  | e :: given, given', h, hw, hw' => by
    cases given' <;> simp only [sameArguments, Bool.and_eq_true, Bool.false_eq_true] at h
    exact .cons (Expr.mirrors_of_same e _ h.1 hw.1 hw'.1)
      (argumentsMirror_of_same given _ h.2 hw.2 hw'.2)

theorem Selector.mirrors_of_same : ∀ (sel sel' : Selector), sel.same sel' = true →
    sel.IsWritten → sel'.IsWritten → sel.Mirrors Token.SameShape sel'
  | .name _ _, sel', h, _, _ => by
    cases sel' <;> simp only [Selector.same, Bool.and_eq_true, Bool.false_eq_true] at h
    obtain rfl := eq_of_beq h.2
    exact .name (Token.shape_of_same h.1)
  | .index _ _, sel', h, _, _ => by
    cases sel' <;> simp only [Selector.same, Bool.and_eq_true, Bool.false_eq_true] at h
    obtain rfl := eq_of_beq h.2
    exact .index (Token.shape_of_same h.1)
  | .wildcard _, sel', h, _, _ => by
    cases sel' <;> simp only [Selector.same, Bool.false_eq_true] at h
    exact .wildcard (Token.shape_of_same h)
  | .slice _ _ _ _, sel', h, _, _ => by
    cases sel' <;> simp only [Selector.same, Bool.and_eq_true, Bool.false_eq_true] at h
    obtain ⟨⟨⟨ht, hstart⟩, hstop⟩, hstep⟩ := h
    obtain rfl := eq_of_beq hstart
    obtain rfl := eq_of_beq hstop
    obtain rfl := eq_of_beq hstep
    exact .slice (Token.shape_of_same ht)
  | .filter _ e, sel', h, hw, hw' => by
    cases sel' <;> simp only [Selector.same, Bool.and_eq_true, Bool.false_eq_true] at h
    exact .filter (Token.shape_of_same h.1) (Expr.mirrors_of_same e _ h.2 hw hw')

theorem selectorsMirror_of_same : ∀ (sels sels' : List Selector),
    sameSelectors sels sels' = true → selectorsAreWritten sels → selectorsAreWritten sels' →
      SelectorsMirror Token.SameShape sels sels'
  | [], sels', h, _, _ => by
    cases sels' <;> simp only [sameSelectors, Bool.false_eq_true] at h
    exact .nil
  | sel :: sels, sels', h, hw, hw' => by
    cases sels' <;> simp only [sameSelectors, Bool.and_eq_true, Bool.false_eq_true] at h
    exact .cons (Selector.mirrors_of_same sel _ h.1 hw.1 hw'.1)
      (selectorsMirror_of_same sels _ h.2 hw.2 hw'.2)

theorem Segment.mirrors_of_same : ∀ (seg seg' : Segment), seg.same seg' = true →
    seg.IsWritten → seg'.IsWritten → seg.Mirrors Token.SameShape seg'
  | .child _ sels, seg', h, hw, hw' => by
    cases seg' <;> simp only [Segment.same, Bool.and_eq_true, Bool.false_eq_true] at h
    exact .child (Token.shape_of_same h.1) (selectorsMirror_of_same sels _ h.2 hw hw')
  | .descendant _ sels, seg', h, hw, hw' => by
    cases seg' <;> simp only [Segment.same, Bool.and_eq_true, Bool.false_eq_true] at h
    exact .descendant (Token.shape_of_same h.1) (selectorsMirror_of_same sels _ h.2 hw hw')

/-- Two queries that are the same, and whose literals are those that their tokens write, differ in
the places of their tokens only. -/
theorem segmentsMirror_of_same : ∀ (segs segs' : List Segment), sameSegments segs segs' = true →
    segmentsAreWritten segs → segmentsAreWritten segs' →
      SegmentsMirror Token.SameShape segs segs'
  | [], segs', h, _, _ => by
    cases segs' <;> simp only [sameSegments, Bool.false_eq_true] at h
    exact .nil
  | seg :: segs, segs', h, hw, hw' => by
    cases segs' <;> simp only [sameSegments, Bool.and_eq_true, Bool.false_eq_true] at h
    exact .cons (Segment.mirrors_of_same seg _ h.1 hw.1 hw'.1)
      (segmentsMirror_of_same segs _ h.2 hw.2 hw'.2)

end

end JsonPath
