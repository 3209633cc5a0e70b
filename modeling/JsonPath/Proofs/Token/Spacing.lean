import JsonPath.Proofs.Parser.Composition
import JsonPath.Proofs.Token.Exchange

/-!
# Blanks between tokens

Blanks may stand between any two tokens of a query, but not after dots or the name of a function.
Put in there they change no token: each stands as much further on as there are new blanks before it.

The blanks are put in from the end of the text to its start. So what stands before the next of them
is the text as it was, and only what stands after it has been moved.
-/

namespace JsonPath

namespace Lexer

variable {query : Text} {dots? : Option TokenKind} {offset offset' : Nat}
  {a b cs u v : List CodePoint}
  {ts us tokens : List Token} {t next : Token}

/-! ### The order of tokens -/

theorem Tokenizes.start_ge (h : Tokenizes query dots? offset cs tokens) :
    ∀ t ∈ tokens, offset ≤ t.start := by
  induction h with
  | done => simp
  | bracket _ _ ih => exact ih
  | shorthand _ _ ih =>
    refine List.forall_mem_cons.2 ⟨Nat.le_refl _, fun t ht => ?_⟩
    exact (Nat.le_add_right _ _).trans (ih t ht)
  | lexeme _ _ _ _ ih =>
    refine List.forall_mem_cons.2 ⟨Nat.le_add_right _ _, fun t ht => ?_⟩
    exact (Nat.le_add_right _ _).trans ((Nat.le_add_right _ _).trans (ih t ht))

/-- A token has at least one character, and ends before the next starts. -/
theorem Tokenizes.pairwise (h : Tokenizes query dots? offset cs tokens) :
    tokens.Pairwise fun t u => t.start < t.stop ∧ t.stop ≤ u.start := by
  induction h with
  | done => exact List.pairwise_singleton _ _
  | bracket _ _ ih => exact ih
  | shorthand hlexeme hnext ih =>
    have hpos := (within_of_shorthand? hlexeme).1
    exact ih.cons fun u hu => ⟨Nat.lt_add_of_pos_right hpos, hnext.start_ge u hu⟩
  | lexeme _ _ hlexeme hnext ih =>
    have hpos := (within_of_lexeme? hlexeme).1
    exact ih.cons fun u hu => ⟨Nat.lt_add_of_pos_right hpos, hnext.start_ge u hu⟩

/-! ### Blanks at one place -/

/-- What stands before the first token are blanks, and can be exchanged for others. -/
theorem Tokenizes.exchange_blanks (h : Tokenizes query none offset (u ++ b) (next :: us))
    (hnext : next.kind ≠ .endOfQuery) (hstart : offset + u.length ≤ next.start) :
    (∀ c ∈ u, Text.isBlank c = true) ∧
      ∀ offset' v, (∀ c ∈ v, Text.isBlank c = true) →
        offset' + v.length = offset + u.length →
          Tokenizes query none offset' (v ++ b) (next :: us) := by
  generalize hcs : u ++ b = cs at h
  cases h with
  | done => exact absurd rfl hnext
  | @lexeme _ blanks c cs lexeme _ hblanks hc hlexeme hrest =>
    have hle : u.length ≤ blanks.length := Nat.le_of_add_le_add_left hstart
    obtain ⟨more, rfl⟩ : u <+: blanks :=
      List.prefix_of_prefix_length_le ⟨b, hcs⟩ (List.prefix_append blanks _) hle
    obtain ⟨hu, hmore⟩ := List.forall_mem_append.1 hblanks
    refine ⟨hu, fun offset' v hv hoffset => ?_⟩
    rw [List.append_assoc, List.append_cancel_left_eq] at hcs
    have hlength : offset + (u ++ more).length = offset' + (v ++ more).length := by
      simp only [List.length_append]
      omega
    rw [hlength] at hrest ⊢
    rw [hcs, ← List.append_assoc]
    exact .lexeme (List.forall_mem_append.2 ⟨hv, hmore⟩) hc hlexeme hrest

/-- Blanks that are put in between two tokens move the second and all after it. -/
theorem Tokenizes.insert (h : Tokenizes query dots? offset (a ++ b) (ts ++ t :: next :: us))
    (hkind : t.kind ∉ [TokenKind.dot, .doubleDot, .function]) (hnext : next.kind ≠ .endOfQuery)
    (hstop : t.stop ≤ offset + a.length) (hstart : offset + a.length ≤ next.start)
    {blanks : List CodePoint} (hblanks : ∀ c ∈ blanks, Text.isBlank c = true) (hne : blanks ≠ []) :
    Tokenizes query dots? offset (a ++ (blanks ++ b))
      (ts ++ t :: (next :: us).map (Token.moved query blanks.length)) := by
  rw [List.append_cons] at h ⊢
  obtain ⟨a₀, b₀, hsplit, hcut⟩ := h.exists_cut (List.cons_ne_nil _ _) (by simp)
    (fun u hu => by
      rw [List.getLast?_concat] at hu
      cases hu
      exact hkind)
  have hend : t.stop = offset + a₀.length := (stopOf_concat offset ts t).symm.trans hcut.stop
  -- The place is behind the first token, so it is among the blanks after it.
  obtain ⟨u, rfl⟩ : a₀ <+: a :=
    List.prefix_of_prefix_length_le ⟨b₀, hsplit.symm⟩ (List.prefix_append a b) (by omega)
  rw [List.append_assoc, List.append_cancel_left_eq] at hsplit
  rw [List.length_append, ← Nat.add_assoc] at hstart
  have hafter := (hsplit ▸ hcut.after).moved query blanks.length
  rw [List.map_cons] at hafter ⊢
  obtain ⟨hu, hexchange⟩ := hafter.exchange_blanks hnext (by
    rw [Nat.add_right_comm]
    exact Nat.add_le_add_right hstart _)
  have hboth : ∀ c ∈ u ++ blanks, Text.isBlank c = true :=
    List.forall_mem_append.2 ⟨hu, hblanks⟩
  have hsevered : Severed (u ++ blanks ++ b) := by
    obtain ⟨c, cs, hcs⟩ := List.exists_cons_of_ne_nil
      (List.append_ne_nil_of_right_ne_nil u hne)
    rw [hcs] at hboth ⊢
    exact .of_isBlank (hboth c List.mem_cons_self) _
  rw [List.append_assoc a₀, ← List.append_assoc u]
  refine hcut.exchange _ _ hsevered (hexchange _ _ hboth ?_)
  rw [List.length_append]
  omega

/-! ### Blanks at all places -/

/-- The text with blanks put in before its characters, at each offset those that are given. -/
def spread (blanks : Nat → List CodePoint) : Nat → List CodePoint → List CodePoint
  | _, [] => []
  | offset, c :: cs => blanks offset ++ c :: spread blanks (offset + 1) cs

/-- Blanks to put in between the tokens, but not after dots or the name of a function. -/
structure Spacing (tokens : List Token) (blanks : Nat → List CodePoint) : Prop where
  isBlank : ∀ offset, ∀ c ∈ blanks offset, Text.isBlank c = true
  between : ∀ offset, blanks offset ≠ [] → ∃ t next, [t, next] <:+: tokens ∧
    t.kind ∉ [TokenKind.dot, .doubleDot, .function] ∧ next.kind ≠ .endOfQuery ∧
    t.stop ≤ offset ∧ offset ≤ next.start

/-- Each token is moved as far as its offset says, in the query as it then is. -/
def shifted (query : Text) (shift : Nat → Nat) (ts : List Token) : List Token :=
  ts.map fun t => t.moved query (shift t.start)

theorem shifted_eq_self {shift : Nat → Nat} (hquery : ∀ t ∈ ts, t.query = query)
    (h : ∀ t ∈ ts, shift t.start = 0) : shifted query shift ts = ts := by
  refine (List.map_congr_left fun t ht => ?_).trans (List.map_id ts)
  rw [h t ht, ← hquery t ht]
  rfl

theorem shifted_append (query : Text) (shift : Nat → Nat) (ts us : List Token) :
    shifted query shift (ts ++ us) = shifted query shift ts ++ shifted query shift us :=
      List.map_append

/-- The offset moves by a distance from a place on, and not at all before it. -/
def shiftedFrom (place distance : Nat) (shift : Nat → Nat) (offset : Nat) : Nat :=
  if offset < place then 0 else shift offset + distance

theorem shifted_shiftedFrom {place distance : Nat} {shift : Nat → Nat}
    (h : ∀ t ∈ ts, place ≤ t.start) :
    shifted query (shiftedFrom place distance shift) ts =
      (shifted query shift ts).map (Token.moved query distance) := by
  unfold shifted
  rw [List.map_map]
  refine List.map_congr_left fun t ht => ?_
  simp only [shiftedFrom, if_neg (Nat.not_lt.2 (h t ht)), Function.comp_apply, Token.moved,
    Nat.add_assoc]

/-- Put in from an offset on, the blanks move no token before it. -/
theorem Spacing.exists_shift {blanks : Nat → List CodePoint} (hspacing : Spacing tokens blanks)
    (h : Tokenizes query none 0 (a ++ b) tokens) :
    ∃ shift : Nat → Nat, (∀ i < a.length, shift i = 0) ∧
      Tokenizes query none 0 (a ++ spread blanks a.length b) (shifted query shift tokens) := by
  induction b generalizing a with
  | nil =>
    refine ⟨fun _ => 0, fun _ _ => rfl, ?_⟩
    rw [shifted_eq_self h.query_eq fun _ _ => rfl]
    exact h
  | cons c b ih =>
    have hmoved := h
    rw [List.append_cons] at hmoved
    obtain ⟨shift, hzero, htokens⟩ := ih hmoved
    rw [List.length_append, List.length_singleton] at hzero htokens
    rw [← List.append_cons] at htokens
    by_cases hne : blanks a.length = []
    · refine ⟨shift, fun i hi => hzero i (Nat.lt_succ_of_lt hi), ?_⟩
      rw [spread, hne, List.nil_append]
      exact htokens
    · obtain ⟨t, next, ⟨ts, us, heq⟩, hkind, hnext, hstop, hstart⟩ := hspacing.between _ hne
      obtain rfl : ts ++ [t] ++ next :: us = tokens := by
        rw [← heq, List.append_assoc, List.append_assoc]
        rfl
      obtain ⟨hqueryBefore, -⟩ := List.forall_mem_append.1 h.query_eq
      obtain ⟨hleft, hright, hacross⟩ := List.pairwise_append.1 h.pairwise
      have hlast : t.start < a.length :=
        (hacross t (by simp) next (by simp)).1.trans_le hstop
      have hbefore : ∀ x ∈ ts ++ [t], x.start < a.length := by
        refine List.forall_mem_append.2 ⟨fun x hx => ?_, by simpa using hlast⟩
        have hx := (List.pairwise_append.1 hleft).2.2 x hx t (List.mem_singleton_self t)
        exact (hx.1.trans_le hx.2).trans hlast
      have hafter : ∀ x ∈ next :: us, a.length ≤ x.start := by
        refine List.forall_mem_cons.2 ⟨hstart, fun x hx => ?_⟩
        have hx := (List.pairwise_cons.1 hright).1 x hx
        exact hstart.trans (hx.1.le.trans hx.2)
      rw [shifted_append, shifted_eq_self hqueryBefore fun x hx =>
        hzero _ (Nat.lt_succ_of_lt (hbefore x hx)),
        List.append_assoc] at htokens
      have hput := htokens.insert (b := c :: spread blanks (a.length + 1) b) hkind hnext
        ((Nat.zero_add _).symm ▸ hstop)
        (by
          rw [Nat.zero_add]
          exact hstart.trans (Nat.le_add_right _ _))
        (hspacing.isBlank _) hne
      refine ⟨shiftedFrom a.length (blanks a.length).length shift, fun i hi => if_pos hi, ?_⟩
      rw [shifted_append, shifted_eq_self hqueryBefore fun x hx => if_pos (hbefore x hx),
        shifted_shiftedFrom hafter, List.append_assoc]
      exact hput

theorem shape_shifted (query : Text) (shift : Nat → Nat) (ts : List Token) :
    (shifted query shift ts).map Token.shape = ts.map Token.shape := by
  unfold shifted
  rw [List.map_map]
  rfl

/-- Blanks between the tokens of a text change neither the kind nor the text of any of them. -/
theorem ofQuery_spread {text : Text} {blanks : Nat → List CodePoint}
    (h : Token.ofQuery text = .ok tokens) (hspacing : Spacing tokens blanks) :
    ∃ tokens', Token.ofQuery (Text.ofList (spread blanks 0 text.toList)) = .ok tokens' ∧
      tokens'.map Token.shape = tokens.map Token.shape := by
  obtain ⟨⟨c, hc, hblank⟩, htokens⟩ := tokenizes_of_ofQuery h
  obtain ⟨shift, -, hspread⟩ := hspacing.exists_shift (a := []) htokens
  let spaced := Text.ofList (spread blanks 0 text.toList)
  refine ⟨(shifted text shift tokens).map (Token.moved spaced 0),
    ofQuery_of_tokenizes ?_ hblank ?_, ?_⟩
  · -- No token stands before the first character, so no blank does either.
    have hnone : blanks 0 = [] := by
      by_contra hne
      obtain ⟨t, next, ⟨ts, us, heq⟩, -, -, hstop, -⟩ := hspacing.between 0 hne
      rw [← heq] at htokens
      have hpair := (List.pairwise_append.1 (List.pairwise_append.1 htokens.pairwise).1).2.1
      have hlt := ((List.pairwise_cons.1 hpair).1 next (List.mem_singleton_self next)).1
      omega
    obtain ⟨cs, hcs⟩ := List.head?_eq_some_iff.1 hc
    rw [Text.toList_ofList, hcs, spread, hnone]
    rfl
  · rw [Text.toList_ofList]
    exact hspread.moved spaced 0
  · rw [List.map_map]
    exact shape_shifted text shift tokens

end Lexer

end JsonPath
