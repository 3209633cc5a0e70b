import JsonPath.Proofs.Parser.Moved

/-!
# Queries that are written one after the other

A query can be continued by what could stand after a `$`. The text of both is a query, and its
segments are those of the one and those of the other.
-/

namespace JsonPath

open Lexer

/-! ### Tokens of whole texts -/

theorem tokenizes_of_ofQuery {text : Text} {tokens : List Token}
    (h : Token.ofQuery text = .ok tokens) :
    (∃ c ∈ text.toList.head?, Text.isBlank c = false) ∧
    Tokenizes text none 0 text.toList tokens := by
  unfold Token.ofQuery at h
  dsimp only at h
  split at h
  · cases h
  next c cs heq =>
    split at h
    · cases h
    next hblank =>
      refine ⟨⟨c, by rw [heq]; rfl, eq_false_of_ne_true hblank⟩, tokenizes_of_tokensFrom h⟩

theorem ofQuery_of_tokenizes {text : Text} {tokens : List Token} {c : CodePoint}
    (hc : c ∈ text.toList.head?) (hblank : Text.isBlank c = false)
    (h : Tokenizes text none 0 text.toList tokens) : Token.ofQuery text = .ok tokens := by
  obtain ⟨cs, hcs⟩ := List.head?_eq_some_iff.1 hc
  have htokens := tokensFrom_of_tokenizes h
  unfold Token.ofQuery
  rw [hcs] at htokens ⊢
  dsimp only
  rw [hblank]
  exact htokens

/-- What stands after a `$` is lexed on its own. -/
theorem tokenizes_after_root {query : Text} {cs : List CodePoint} {root : Token}
    {tokens : List Token}
    (h : Tokenizes query none 0 ('$' :: cs) (root :: tokens)) :
    Tokenizes query none 1 cs tokens := by
  have hblank : Text.isBlank '$' = false := by decide
  have hlexeme : lexeme? ('$' :: cs) = .ok (some ⟨.root, 1⟩) := rfl
  have heq := tokensFrom_eq query 0 (List.forall_mem_nil _) hblank cs
  rw [List.nil_append, tokensFrom_of_tokenizes h, hlexeme] at heq
  cases hnext : tokensFrom query none 1 cs with
  | error error => cases heq.trans (congrArg (Functor.map _) hnext)
  | ok more =>
    cases heq.trans (congrArg (Functor.map _) hnext)
    exact tokenizes_of_tokensFrom hnext

namespace Grammar

variable {dialect : Dialect} {ts us : List Token} {segs segs' : List Segment}

/-! ### Where queries end and segments start -/

/-- Segments start with dots or a bracket. -/
theorem Derives.head_segments (h : Derives dialect .segments ts segs) :
    ∀ t ∈ ts.head?, t.kind ∉ operandKinds := by
  cases h with
  | noSegments => exact fun t ht => by cases ht
  | moreSegments hseg _ =>
    intro t ht
    cases hseg with
    | child hkind _ | descendant hkind _ | descendantBracketed hkind _ =>
      cases ht
      rw [hkind]
      decide
    | childBracketed hbracketed =>
      cases ht
      cases hbracketed with
      | bracketed hkind _ _ =>
        rw [hkind]
        decide

/-- The last of the tokens is one that can end a query. -/
def EndsQuery (ts : List Token) : Prop :=
  ∃ t : Token, ts.getLast? = some t ∧ t.kind.endsQuery = true

theorem EndsQuery.singleton {t : Token} (h : t.kind.endsQuery = true) : EndsQuery [t] := ⟨t, rfl, h⟩

theorem EndsQuery.append (h : EndsQuery us) (ts : List Token) : EndsQuery (ts ++ us) := by
  obtain ⟨t, ht, hkind⟩ := h
  refine ⟨t, ?_, hkind⟩
  rw [List.getLast?_append, ht]
  rfl

/-- What is known of the end of what is derived from a nonterminal. -/
def Closes : Nonterminal → List Token → Prop
  | .segments, ts => ts = [] ∨ EndsQuery ts
  | .query, ts | .segment, ts | .shorthand, ts | .bracketed, ts => EndsQuery ts
  | _, _ => True

theorem Derives.closes {n : Nonterminal} {tree : n.Tree} (h : Derives dialect n ts tree) :
    Closes n ts := by
  induction h with
  | query hroot _ ih =>
    rcases ih with rfl | ih
    · exact .singleton (by rw [hroot]; rfl)
    · exact ih.append [_]
  | noSegments => exact .inl rfl
  | moreSegments _ _ ih ih' =>
    rcases ih' with rfl | ih'
    · rw [List.append_nil]
      exact .inr ih
    · exact .inr (ih'.append _)
  | child _ _ ih | descendant _ _ ih | descendantBracketed _ _ ih =>
    have hshorthand : EndsQuery _ := ih
    exact hshorthand.append [_]
  | childBracketed _ ih => exact ih
  | member hkind | anyMember hkind => exact .singleton (by rw [hkind]; rfl)
  | bracketed _ _ hclosing _ =>
    have hlast := EndsQuery.singleton (by rw [hclosing]; rfl)
    exact hlast.append (_ :: _)
  | _ => trivial

theorem Derives.append_segments (h : Derives dialect .segments ts segs)
    (h' : Derives dialect .segments us segs') :
    Derives dialect .segments (ts ++ us) (segs ++ segs') := by
  induction segs generalizing ts with
  | nil =>
    cases h
    exact h'
  | cons seg segs ih =>
    cases h with
    | moreSegments hseg hsegs =>
      rw [List.append_assoc]
      exact .moreSegments hseg (ih hsegs)

end Grammar

/-- No name goes on where segments start. -/
theorem not_isNameChar_of_tokenizes {dialect : Dialect} {query : Text} {offset : Nat}
    {cs : List CodePoint}
    {ts : List Token} {final : Token} {segs : List Segment}
    (h : Tokenizes query none offset cs (ts ++ [final]))
    (hsegs : Grammar.Derives dialect .segments ts segs) :
    ∀ c ∈ cs.head?, isNameChar c = false := by
  have hblank {c : CodePoint} (hc : Text.isBlank c = true) : isNameChar c = false := by
    simp only [Text.isBlank, decide_eq_true_eq] at hc
    rcases hc with rfl | rfl | rfl | rfl <;> rfl
  intro c hc
  generalize htokens : ts ++ [final] = tokens at h
  cases h with
  | done => cases hc
  | @lexeme _ blanks d more lexeme tokens hblanks hd hlexeme hnext =>
    cases blanks with
    | cons b blanks =>
      cases hc
      exact hblank (hblanks _ List.mem_cons_self)
    | nil =>
      cases hc
      obtain ⟨us, last, rfl⟩ := hnext.exists_final
      obtain ⟨rfl, -⟩ := List.append_inj' (htokens.trans (List.cons_append ..).symm) rfl
      have hsymbol := symbol?_of_lexeme? hlexeme (hsegs.head_segments _ rfl)
      rw [Bool.eq_false_iff]
      intro hname
      cases hsymbol.symm.trans (symbol?_eq_none (p := isNameChar) (by decide) hname more)

/-- A query goes on with what could stand after a `$`. -/
theorem Query.ofText_append {dialect : Dialect} {a b : Text} {first second : Query}
    (ha : Query.ofText dialect a = .ok first) (hb : Query.ofText dialect ("$" ++ b) = .ok second) :
    Query.ofText dialect (a ++ b) =
      .ok (movedSegments (a ++ b) 0 first ++ movedSegments (a ++ b) (a.length - 1) second) := by
  let distance := a.length - 1
  obtain ⟨ts, final, hts, hfirst⟩ := Grammar.ofText_eq_ok_iff.1 ha
  obtain ⟨us, final', hus, hsecond⟩ := Grammar.ofText_eq_ok_iff.1 hb
  obtain ⟨⟨c, hc, hblank⟩, hts⟩ := tokenizes_of_ofQuery hts
  obtain ⟨-, hus⟩ := tokenizes_of_ofQuery hus
  have hends : Grammar.EndsQuery ts := hfirst.closes
  cases hfirst with
  | @query root ts _ hroot hfirst =>
  cases hsecond with
  | @query root' us _ _ hsecond =>
  have hdollar : ("$" ++ b).toList = ('$' : CodePoint) :: b.toList := Text.toList_append
  rw [hdollar] at hus
  have hrest : Tokenizes ("$" ++ b) none 1 b.toList (us ++ [final']) := tokenizes_after_root hus
  have hlength : 1 + distance = a.toList.length := by
    have hpos : 0 < a.toList.length := by
      obtain ⟨cs, hcs⟩ := List.head?_eq_some_iff.1 hc
      rw [hcs]
      exact Nat.succ_pos _
    rw [Text.length_toList] at hpos ⊢
    omega
  have hmoved := hrest.moved (a ++ b) distance
  rw [hlength, List.map_append, ← Nat.zero_add a.toList.length] at hmoved
  have hplaced := hts.moved (a ++ b) 0
  rw [List.map_append, List.map_singleton] at hplaced
  have hboth := hplaced.append
    (fun t ht => by
      obtain ⟨t', ht', hkind⟩ := hends
      rw [List.getLast?_map, ht'] at ht
      cases ht
      exact hkind)
    (not_isNameChar_of_tokenizes hrest hsecond) hmoved
  rw [← Text.toList_append, ← List.append_assoc] at hboth
  refine Grammar.ofText_eq_ok_iff.2 ⟨_, _, ofQuery_of_tokenizes ?_ hblank hboth, ?_⟩
  · rw [Text.toList_append]
    exact List.mem_head?_append_of_mem_head? hc
  · exact .query hroot (hfirst.moved.append_segments hsecond.moved)

end JsonPath
