import JsonPath.Proofs.Canonical.Unambiguity
import JsonPath.Proofs.Session.Equality

/-!
# Canonical texts identify queries

Two compiled queries of one text cannot be told apart by what they find, unless the literals of one
of them hold surrogates in pairs.
-/

namespace JsonPath

variable {environment : Environment} {a b : Text} {p q : Query}

/-- **The canonical text identifies a query up to pairs of surrogates.** Two queries that are
compiled in one environment and have the same text are one tree but for the tokens, the step 1 where
a slice has none, and the surrogates in literals that are joined to one character; their number
literals are the same numbers of the same types. If there is nothing to join in either, as in the
queries of texts without surrogates, they come from the same state of a session to the same nodes in
the same order or the same fault; and whatever has been done before the one search and before the
other, with caches of any sizes, they find the same nodes or both fail. What a host function returns
depends on its arguments only. -/
theorem compile_of_text_eq (ha : environment.compile a = .ok p)
    (hb : environment.compile b = .ok q) (h : p.text = q.text) :
    bareSegments (joinedSegments p) = bareSegments (joinedSegments q) ∧
    ((∀ c ∈ a.toList, c.IsScalar) → joinedSegments p = p) ∧
    ((∀ c ∈ b.toList, c.IsScalar) → joinedSegments q = q) ∧
    (joinedSegments p = p → joinedSegments q = q →
      bareSegments p = bareSegments q ∧
      (∀ (session : Session) (logging : Bool) (data : Value) (root? : Option Value),
        session.find logging p data root? = session.find logging q data root?) ∧
      ∀ (sizes sizes' : Text → Nat) (history history' : List LoggedCommand),
        (∀ step ∈ history, step.2.isSteady = true) →
        (∀ step ∈ history', step.2.isSteady = true) →
        ∀ (logging logging' : Bool) (data : Value) (root? : Option Value),
          let session := (Session.start (environment.renewed sizes)).after history
          let session' := (Session.start (environment.renewed sizes')).after history'
          (session.find logging p data root?).toOption =
            (session'.find logging' q data root?).toOption) := by
  have hjoined : bareSegments (joinedSegments p) = bareSegments (joinedSegments q) :=
    (Query.wellFormed_of_ofText ha).bare_joined_eq (Query.wellFormed_of_ofText hb) h
  refine ⟨hjoined, Query.joined_eq_self ha, Query.joined_eq_self hb, fun hp hq => ?_⟩
  have hbare : bareSegments p = bareSegments q := by rwa [hp, hq] at hjoined
  exact ⟨hbare, Session.find_congr hbare,
    fun sizes sizes' _ _ => Session.toOption_find_congr hbare environment sizes sizes'⟩

/-- Two notations of a name and of a slice that have one text, and find the same. -/
theorem compile_of_text_eq_slice : ∃ p q,
    Environment.standard.compile "$.a[1:]" = .ok p ∧
    Environment.standard.compile "$[\"a\"][1::1]" = .ok q ∧
    p.text = q.text ∧ p ≠ q ∧ bareSegments p = bareSegments q ∧
    ∀ (session : Session) (logging : Bool) (data : Value) (root? : Option Value),
      session.find logging p data root? = session.find logging q data root? := by
  obtain ⟨p, q, hp, hq, htext, hne⟩ : ∃ p q : Query,
      Environment.standard.compile "$.a[1:]" = .ok p ∧
      Environment.standard.compile "$[\"a\"][1::1]" = .ok q ∧
      p.text = q.text ∧ p.map Segment.token ≠ q.map Segment.token :=
    ⟨_, _, by cbv, by cbv, by cbv, by simp [Segment.token]⟩
  obtain ⟨-, hp', hq', hsame⟩ := compile_of_text_eq hp hq htext
  obtain ⟨hbare, hfind, -⟩ := hsame (hp' (by decide)) (hq' (by decide))
  exact ⟨p, q, hp, hq, htext, fun heq => hne (congrArg _ heq), hbare, hfind⟩

/-- A literal with the two surrogates of a character has the text of the literal with the character,
but it is equal to another value. -/
theorem not_compile_of_text_eq_surrogates :
    let pair : Text := ⟨[.surrogate ⟨0x3D, by decide⟩, .surrogate ⟨0x600, by decide⟩]⟩
    let data : Value := .array [.string "😀"]
    ∃ p q,
      Environment.standard.compile ("$[?@=='" ++ pair ++ "']") = .ok p ∧
      Environment.standard.compile "$[?@=='😀']" = .ok q ∧
      p.text = q.text ∧ bareSegments p ≠ bareSegments q ∧
      (Session.start Environment.standard).find false p data none = .ok [] ∧
      (Session.start Environment.standard).find false q data none =
        .ok [⟨.string "😀", [.index 0], data⟩] := by
  intro pair data
  obtain ⟨p, q, hp, hq, htext, hfind, hfind'⟩ : ∃ p q : Query,
      Environment.standard.compile ("$[?@=='" ++ pair ++ "']") = .ok p ∧
      Environment.standard.compile "$[?@=='😀']" = .ok q ∧ p.text = q.text ∧
      (Session.start Environment.standard).find false p data none = .ok [] ∧
      (Session.start Environment.standard).find false q data none =
        .ok [⟨.string "😀", [.index 0], data⟩] :=
    ⟨_, _, by cbv, by cbv, by cbv, by cbv, by cbv⟩
  refine ⟨p, q, hp, hq, htext, fun hbare => ?_, hfind, hfind'⟩
  rw [Session.find_congr hbare, hfind'] at hfind
  cases hfind

end JsonPath
