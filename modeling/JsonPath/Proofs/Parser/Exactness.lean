import Mathlib
import JsonPath.Proofs.Parser.Scanning

/-!
# The language of the parser

On the tokens of a text the parser accepts exactly what the grammar derives, with the tree that the
grammar gives.
-/

namespace JsonPath.Grammar

/-- The parser accepts exactly the token sequences of queries that the grammar derives, and makes
of each the tree that the grammar gives. -/
theorem ofTokens_eq_ok_iff_derives {dialect : Dialect} {text : Text} {tokens : List Token}
    (h : Token.ofQuery text = .ok tokens) {query : Query} :
    Query.ofTokens dialect tokens = .ok query ↔ Derives dialect .query tokens.dropLast query := by
  obtain ⟨ts, final, rfl, hfinal, hts⟩ := scanned_of_ofQuery h
  rw [List.dropLast_concat]
  exact ofTokens_append_eq_ok_iff hts hfinal

/-- A comparison in a filter, read and derived. -/
theorem derives_of_ofTokens_comparison :
    let text : Text := "$[?@==1]"
    Token.ofQuery text = .ok [⟨.root, "$", 0, 1, text⟩, ⟨.openSquare, "[", 1, 2, text⟩,
      ⟨.filter, "?", 2, 3, text⟩, ⟨.current, "@", 3, 4, text⟩, ⟨.equals, "==", 4, 6, text⟩,
        ⟨.integer, "1", 6, 7, text⟩,
      ⟨.closeSquare, "]", 7, 8, text⟩, ⟨.endOfQuery, "", 8, 8, text⟩] ∧
    Derives ⟨0, 9, fun _ => none⟩ .query [⟨.root, "$", 0, 1, text⟩, ⟨.openSquare, "[", 1, 2, text⟩,
      ⟨.filter, "?", 2, 3, text⟩, ⟨.current, "@", 3, 4, text⟩, ⟨.equals, "==", 4, 6, text⟩,
        ⟨.integer, "1", 6, 7, text⟩,
      ⟨.closeSquare, "]", 7, 8, text⟩]
      [.child ⟨.openSquare, "[", 1, 2, text⟩ [.filter ⟨.filter, "?", 2, 3, text⟩
        (.comparison ⟨.equals, "==", 4, 6, text⟩ (.relative ⟨.current, "@", 3, 4, text⟩ []) .equal
          (.literal ⟨.integer, "1", 6, 7, text⟩ (.number (.integer 1))))]] := by
  intro text
  have hlexed : Token.ofQuery text = .ok [⟨.root, "$", 0, 1, text⟩, ⟨.openSquare, "[", 1, 2, text⟩,
      ⟨.filter, "?", 2, 3, text⟩, ⟨.current, "@", 3, 4, text⟩, ⟨.equals, "==", 4, 6, text⟩,
        ⟨.integer, "1", 6, 7, text⟩,
      ⟨.closeSquare, "]", 7, 8, text⟩, ⟨.endOfQuery, "", 8, 8, text⟩] := by
    subst text
    cbv
  exact ⟨hlexed, (ofTokens_eq_ok_iff_derives hlexed).1 (by subst text; cbv)⟩

end JsonPath.Grammar
