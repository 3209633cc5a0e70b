import Mathlib
import JsonPath.Proofs.Canonical.Indifference
import JsonPath.Proofs.Canonical.Loss
import JsonPath.Proofs.Parser.Scanning

/-!
# Canonical texts as queries

A compiled query can be compiled again from its canonical text if and only if its numbers are
finite, no comparison is negated in it, 1 is in the bounds of indices wherever a slice implies it,
and no surrogate stands alone in its literals. What comes out then is the same query but for its
tokens, its written steps and the surrogates that are joined: it has the same text, and it runs
alike if there was nothing to join, as in the query of a text without surrogates.
-/

namespace JsonPath

open Grammar

variable {environment : Environment} {text : Text} {query : Query}

/-- What the compilation of a text says about its query. -/
structure Query.WellFormed (dialect : Dialect) (query : Query) : Prop where
  typed : segmentsWellTyped dialect.signatures query
  proper : segmentsProper dialect query

theorem Query.wellFormed_of_ofText {dialect : Dialect} (h : Query.ofText dialect text = .ok query) :
    query.WellFormed dialect := by
  obtain ⟨ts, final, htokens, hderives⟩ := ofText_eq_ok_iff.1 h
  obtain ⟨ts', final', heq, -, hscanned⟩ := scanned_of_ofQuery htokens
  obtain ⟨rfl, -⟩ := List.append_inj' heq rfl
  exact ⟨hderives.wellTyped, hderives.proper hscanned.each⟩

/-- A query that is written in full is read back. -/
theorem Query.WellFormed.reads_back {dialect : Dialect} (h : query.WellFormed dialect)
    (hrestores : segmentsRestore dialect query) (hfinite : segmentsAreFinite query = true) :
    ∃ again, Query.ofText dialect query.text = .ok again ∧
      bareSegments again = bareSegments (joinedSegments query) := by
  have hlexed := Query.ofQuery_text h.proper
  rw [if_pos hfinite] at hlexed
  obtain ⟨ts, final, htokens, -, hts⟩ := hlexed
  obtain ⟨root, us, rfl, hroot, hus⟩ := List.map_eq_cons_iff.1 hts
  obtain ⟨again, hbare, hsegs⟩ := segments_regained query h.typed h.proper hrestores hfinite us hus
  exact ⟨again, ofText_eq_ok_iff.2 ⟨_, final, htokens, .query (kind_of_shape hroot) hsegs⟩, hbare⟩

/-- A query that is not written in full is not read at all. -/
theorem Query.WellFormed.restores_of_reads {dialect : Dialect} (h : query.WellFormed dialect)
    {again : Query} (hagain : Query.ofText dialect query.text = .ok again) :
    segmentsRestore dialect query ∧ segmentsAreFinite query = true := by
  obtain ⟨ts, final, htokens, hderives⟩ := ofText_eq_ok_iff.1 hagain
  have hlexed := Query.ofQuery_text h.proper
  split at hlexed
  next hfinite =>
    refine ⟨?_, hfinite⟩
    obtain ⟨ts', final', htokens', hfinal, hts⟩ := hlexed
    obtain ⟨rfl, hfinals⟩ := List.append_inj' (Except.ok.inj (htokens'.symm.trans htokens)) rfl
    obtain ⟨root, us, rfl, -, hus⟩ := List.map_eq_cons_iff.1 hts
    by_contra hlost
    cases hderives with
    | query _ hsegs =>
      let s : Stream := ⟨[], final', hfinal⟩
      exact segments_unread query h.typed h.proper hfinite hlost us hus s s again
        (hsegs.accepted s (by simp [Stream.EndsPath, Stream.peek, s, hfinal]))
  next =>
    obtain ⟨error, herror⟩ := hlexed
    cases htokens.symm.trans herror

/-- The canonical text of a compiled query is a query again if and only if it is written in full,
and then one with the same text that runs like the query with joined surrogates; which is the query
itself, unless there is a surrogate in its text. -/
theorem compile_canonical (h : environment.compile text = .ok query) :
    ((∃ again, environment.compile query.text = .ok again) ↔
      segmentsRestore environment.dialect query ∧ segmentsAreFinite query = true) ∧
    (∀ again, environment.compile query.text = .ok again → again.text = query.text ∧
      ∀ start, Run.Alike (Query.evaluate Run.host (joinedSegments query) start)
        (again.evaluate Run.host start)) ∧
    ((∀ c ∈ text.toList, c.IsScalar) → joinedSegments query = query) := by
  have hwell := Query.wellFormed_of_ofText h
  refine ⟨⟨fun ⟨again, hagain⟩ => hwell.restores_of_reads hagain, fun ⟨hrestores, hfinite⟩ => ?_⟩,
    fun again hagain => ?_, Query.joined_eq_self h⟩
  · obtain ⟨again, hagain, -⟩ := hwell.reads_back hrestores hfinite
    exact ⟨again, hagain⟩
  · obtain ⟨hrestores, hfinite⟩ := hwell.restores_of_reads hagain
    obtain ⟨again', hagain', hbare⟩ := hwell.reads_back hrestores hfinite
    obtain rfl := Except.ok.inj (hagain.symm.trans hagain')
    refine ⟨?_, fun start => Query.evaluate_alike hbare.symm start⟩
    rw [← Query.text_bare again, hbare, Query.text_bare, Query.text_joined]

/-- A slice without a step is written with one, and read back. -/
theorem compile_canonical_slice : ∃ query again,
    Environment.standard.compile "$..a[1:]" = .ok query ∧ query.text = "$..['a'][1::1]" ∧
      Environment.standard.compile query.text = .ok again ∧ again.text = query.text := by
  obtain ⟨query, hquery, htext⟩ : ∃ query, Environment.standard.compile "$..a[1:]" = .ok query ∧
      query.text = "$..['a'][1::1]" := ⟨_, by cbv, by cbv⟩
  obtain ⟨again, hagain⟩ : ∃ again, Environment.standard.compile query.text = .ok again := by
    rw [htext]
    exact ⟨_, by cbv⟩
  exact ⟨query, again, hquery, htext, hagain, ((compile_canonical hquery).2.1 again hagain).1⟩

/-- A negated comparison loses its parentheses and is not read back. -/
theorem not_compile_negated_comparison : ∃ query,
    Environment.standard.compile "$[?!(@.a == 1)]" = .ok query ∧
      query.text = "$[?!@['a'] == 1]" ∧
        ¬ ∃ again, Environment.standard.compile query.text = .ok again := by
  obtain ⟨query, hquery, htext⟩ : ∃ query,
      Environment.standard.compile "$[?!(@.a == 1)]" = .ok query ∧
        query.text = "$[?!@['a'] == 1]" := ⟨_, by cbv, by cbv⟩
  refine ⟨query, hquery, htext, ?_⟩
  rintro ⟨again, hagain⟩
  obtain ⟨error, herror⟩ : ∃ error,
      Environment.standard.compile "$[?!@['a'] == 1]" = .error error := ⟨_, by cbv⟩
  rw [htext, herror] at hagain
  cases hagain

end JsonPath
