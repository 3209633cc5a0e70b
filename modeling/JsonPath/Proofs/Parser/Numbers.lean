import Mathlib
import JsonPath.Environment
import JsonPath.Proofs.Number.Ascii
import JsonPath.Proofs.Parser.Enclosures

/-!
# The numbers of compiled texts

The number tokens of a compiled text are read where they stand, directly in square brackets as
indices and parts of slices, elsewhere as literals. They follow the grammar of the standard if they
are in ASCII; the digits of other scripts are read as well, which the standard does not provide for.
-/

namespace JsonPath

namespace Grammar

variable {dialect : Dialect} {token : Token}

/-- What is read as an index is one of the standard if and only if it is in ASCII, and then it is
what is written for the index. -/
theorem Index.isStandardInteger_iff {i : Int} (h : Index dialect token i) :
    (IsStandardInteger token.text.toList ↔ IsAscii token.text.toList) ∧
      (IsAscii token.text.toList → token.text = Text.ofInt i) := by
  obtain ⟨-, hplain, ⟨n, hspells, hinteger, -, rfl⟩, -, -⟩ := h
  obtain ⟨hterse, hzero⟩ := Parser.isTerse_of_hasIdleZero hspells hplain
  obtain ⟨hiff, hwritten⟩ := Numeral.isStandardInteger_iff hspells hinteger hterse hzero
  exact ⟨hiff, fun hascii => Text.toList_injective (hwritten hascii)⟩

/-- What is read as a number literal is a number of the standard if and only if it is in ASCII. -/
theorem Writes.isStandardNumber_iff {literal : Literal} (h : Writes token literal)
    (hkind : token.kind = .integer ∨ token.kind = .decimal) :
    (∃ n, Parser.number token = .ok n ∧ literal = .number n) ∧
      (IsStandardNumber token.text.toList ↔ IsAscii token.text.toList) := by
  cases h with
  | integer hinteger hplain hspells hwhole hlength =>
    have hnumber :=
      (Parser.number_eq_ok_iff_of_integer hspells hwhole hinteger).2 ⟨hplain, hlength, rfl⟩
    exact ⟨⟨_, hnumber, rfl⟩,
      Numeral.isStandardNumber_iff hspells (Parser.isTerse_of_hasLeadingZero hspells hplain)⟩
  | decimal hdecimal hplain hspells =>
    have hnumber := (Parser.number_eq_ok_iff_of_decimal hspells hdecimal).2 ⟨hplain, rfl⟩
    exact ⟨⟨_, hnumber, rfl⟩,
      Numeral.isStandardNumber_iff hspells (Parser.isTerse_of_hasLeadingZero hspells hplain)⟩
  | string hother => rcases hother with hother | hother <;> simp [hother] at hkind
  | true hother | false hother | null hother => simp [hother] at hkind

end Grammar

open Grammar (Derives)

/-- **Numbers in ASCII follow the standard.** Each number token of a compiled text is read where it
stands. Directly in square brackets, outside of filter expressions, it is an integer token and read
as an index; it is an integer of the standard if and only if it is in ASCII, and then it is what is
written for the index. Everywhere else it is read as a number literal, and is a number of the
standard if and only if it is in ASCII. -/
theorem compile_numbers {environment : Environment} {text : Text} {query : Query}
    (h : environment.compile text = .ok query) :
    ∃ tokens, Token.ofQuery text = .ok tokens ∧
    ∀ before token after, tokens = before ++ token :: after →
      token.kind = .integer ∨ token.kind = .decimal →
      if isAmongSelectors before then
        token.kind = .integer ∧
        (∃ i, Parser.index environment.dialect token = .ok i ∧
          (IsAscii token.text.toList → token.text = Text.ofInt i)) ∧
        (IsStandardInteger token.text.toList ↔ IsAscii token.text.toList)
      else
        (∃ n, Parser.number token = .ok n) ∧
        (IsStandardNumber token.text.toList ↔ IsAscii token.text.toList) := by
  obtain ⟨ts, final, htokens, hfinal, hderives⟩ := Grammar.derives_of_ofText h
  refine ⟨ts ++ [final], htokens, fun before token after hsplit hnumber => ?_⟩
  obtain ⟨more, hts, -⟩ := Grammar.exists_append_final hfinal
    (by rcases hnumber with hkind | hkind <;> simp [hkind]) hsplit
  have hread := (hderives.inPlace []).each before token more hts hnumber
  unfold isAmongSelectors
  split at hread
  next hplace =>
    obtain ⟨i, hindex⟩ := hread
    obtain ⟨hiff, hwritten⟩ := hindex.isStandardInteger_iff
    rw [if_pos (by simpa using hplace)]
    exact ⟨hindex.kind, ⟨i, hindex.index_eq_ok, hwritten⟩, hiff⟩
  next hplace =>
    obtain ⟨literal, hwrites⟩ := hread
    obtain ⟨⟨n, hn, -⟩, hiff⟩ := hwrites.isStandardNumber_iff hnumber
    rw [if_neg (by simpa using hplace)]
    exact ⟨⟨n, hn⟩, hiff⟩

/-- An index that is an integer of the standard, and a literal that is none: a negative zero is a
number only. -/
theorem compile_numbers_zero : ∃ query tokens,
    Environment.standard.compile "$[-7,?@==-0]" = .ok query ∧
    Token.ofQuery "$[-7,?@==-0]" = .ok tokens ∧
    ∀ before token after, tokens = before ++ token :: after →
      token.kind = .integer ∨ token.kind = .decimal →
      if isAmongSelectors before then IsStandardInteger token.text.toList
      else IsStandardNumber token.text.toList := by
  let text : Text := "$[-7,?@==-0]"
  have hlexed : Token.ofQuery text = .ok [⟨.root, "$", 0, 1, text⟩, ⟨.openSquare, "[", 1, 2, text⟩,
      ⟨.integer, "-7", 2, 4, text⟩, ⟨.comma, ",", 4, 5, text⟩, ⟨.filter, "?", 5, 6, text⟩,
        ⟨.current, "@", 6, 7, text⟩,
      ⟨.equals, "==", 7, 9, text⟩, ⟨.integer, "-0", 9, 11, text⟩, ⟨.closeSquare, "]", 11, 12, text⟩,
      ⟨.endOfQuery, "", 12, 12, text⟩] := by
    subst text
    cbv
  obtain ⟨query, hquery⟩ : ∃ query,
      Environment.standard.compile "$[-7,?@==-0]" = .ok query := by
    unfold Environment.compile Query.ofText
    rw [hlexed]
    exact ⟨_, by subst text; cbv⟩
  obtain ⟨tokens, htokens, hall⟩ := compile_numbers hquery
  refine ⟨query, tokens, hquery, htokens, fun before token after hsplit hnumber => ?_⟩
  obtain rfl := Except.ok.inj (hlexed.symm.trans htokens)
  have hascii : IsAscii token.text.toList := by
    have hmem : token ∈ before ++ token :: after := by simp
    rw [← hsplit] at hmem
    simp only [List.mem_cons, List.not_mem_nil, or_false] at hmem
    rcases hmem with rfl | rfl | rfl | rfl | rfl | rfl | rfl | rfl | rfl | rfl <;> decide
  have hread := hall before token after hsplit hnumber
  split at hread
  next hplace => rw [if_pos hplace]; exact hread.2.2.2 hascii
  next hplace => rw [if_neg hplace]; exact hread.2.2 hascii

set_option maxRecDepth 10000 in
/-- A digit of another script is read as an index, though it is no number of the standard. -/
theorem not_isStandardInteger_arabic :
    let text : Text := "$[\u0661]"
    (∃ query, Environment.standard.compile text = .ok query) ∧
    Token.ofQuery text = .ok [⟨.root, "$", 0, 1, text⟩, ⟨.openSquare, "[", 1, 2, text⟩,
      ⟨.integer, "\u0661", 2, 3, text⟩, ⟨.closeSquare, "]", 3, 4, text⟩,
        ⟨.endOfQuery, "", 4, 4, text⟩] ∧
    isAmongSelectors [⟨.root, "$", 0, 1, text⟩, ⟨.openSquare, "[", 1, 2, text⟩] = true ∧
    Parser.index Environment.standard.dialect ⟨.integer, "\u0661", 2, 3, text⟩ = .ok 1 ∧
    ¬ IsStandardInteger ("\u0661" : Text).toList := by
  intro text
  have hlexed : Token.ofQuery text = .ok [⟨.root, "$", 0, 1, text⟩, ⟨.openSquare, "[", 1, 2, text⟩,
      ⟨.integer, "\u0661", 2, 3, text⟩, ⟨.closeSquare, "]", 3, 4, text⟩,
        ⟨.endOfQuery, "", 4, 4, text⟩] := by
    subst text
    cbv
  refine ⟨?_, hlexed, by decide, by subst text; cbv, fun h => absurd h.isAscii (by decide)⟩
  unfold Environment.compile Query.ofText
  rw [hlexed]
  exact ⟨_, by subst text; cbv⟩

end JsonPath
