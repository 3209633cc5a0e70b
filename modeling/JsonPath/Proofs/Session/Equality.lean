import JsonPath.Proofs.Canonical.Equality
import JsonPath.Proofs.Session.Composition

/-!
# Equality of queries is sound

Two compiled queries that are the same cannot be told apart by what can be done with a query: they
have the same hash, however hashes are made, and the same text, and they find the same nodes.
-/

namespace JsonPath

theorem Query.isWritten_of_ofText {dialect : Dialect} {text : Text} {query : Query}
    (h : Query.ofText dialect text = .ok query) : segmentsAreWritten query := by
  obtain ⟨ts, final, -, hderives⟩ := Grammar.ofText_eq_ok_iff.1 h
  exact hderives.isWritten

theorem Query.text_congr {p q : Query} (h : bareSegments p = bareSegments q) :
    p.text = q.text := by
  rw [← Query.text_bare, h, Query.text_bare]

/-- Queries that are the same but for tokens and implied steps find the same nodes or both fail,
whatever has been done before the one search and before the other. -/
theorem Session.toOption_find_congr {p q : Query} (h : bareSegments p = bareSegments q)
    (environment : Environment) (sizes sizes' : Text → Nat) {history history' : List LoggedCommand}
    (hsteady : ∀ step ∈ history, step.2.isSteady = true)
    (hsteady' : ∀ step ∈ history', step.2.isSteady = true)
    (logging logging' : Bool) (data : Value) (root? : Option Value) :
    (((Session.start (environment.renewed sizes)).after history).find logging p data
        root?).toOption =
      (((Session.start (environment.renewed sizes')).after history').find logging' q data
        root?).toOption := by
  obtain ⟨_, hsession⟩ := (Session.start_follows environment sizes).after hsteady
  obtain ⟨_, hsession'⟩ := (Session.start_follows environment sizes').after hsteady'
  rw [Session.find_congr h, hsession.toOption_find, hsession'.toOption_find]

/-- **Equality of queries is sound.** Two queries that are compiled in one environment and are the
same have the same hash and the same text. From the same state of a session, whatever its functions
and their caches are, they come to the same nodes or the same fault; and whatever has been done
before the one search and before the other, with caches of any sizes, they find the same nodes or
both fail. The functions are free of side effects but for their caches: what a host function returns
depends on its arguments only. -/
theorem compile_same {environment : Environment} {a b : Text} {p q : Query}
    (ha : environment.compile a = .ok p) (hb : environment.compile b = .ok q)
    (h : p.same q = true) :
    (∀ {Hash : Type} (hashing : Hashing Hash), p.hash hashing = q.hash hashing) ∧
    p.text = q.text ∧
    (∀ (session : Session) (logging : Bool) (data : Value) (root? : Option Value),
      session.find logging p data root? = session.find logging q data root?) ∧
    ∀ (sizes sizes' : Text → Nat) (history history' : List LoggedCommand),
      (∀ step ∈ history, step.2.isSteady = true) →
      (∀ step ∈ history', step.2.isSteady = true) →
      ∀ (logging logging' : Bool) (data : Value) (root? : Option Value),
        let session := (Session.start (environment.renewed sizes)).after history
        let session' := (Session.start (environment.renewed sizes')).after history'
        (session.find logging p data root?).toOption =
          (session'.find logging' q data root?).toOption := by
  have hbare : bareSegments p = bareSegments q :=
    bareSegments_of_mirror (segmentsMirror_of_same p q h (Query.isWritten_of_ofText ha)
      (Query.isWritten_of_ofText hb))
  exact ⟨fun hashing => Query.hash_of_same hashing h, Query.text_congr hbare,
    Session.find_congr hbare,
    fun sizes sizes' _ _ => Session.toOption_find_congr hbare environment sizes sizes'⟩

/-- The same filter with blanks and parentheses that it could do without. -/
theorem compile_same_filter : ∃ p q,
    Environment.standard.compile "$[?@=='b']" = .ok p ∧
    Environment.standard.compile "$ [?(@ == 'b')]" = .ok q ∧
    p.same q = true ∧ p ≠ q ∧ p.text = q.text ∧
    ∀ {Hash : Type} (hashing : Hashing Hash), p.hash hashing = q.hash hashing := by
  obtain ⟨p, q, hp, hq, hsame, hne⟩ : ∃ p q : Query,
      Environment.standard.compile "$[?@=='b']" = .ok p ∧
      Environment.standard.compile "$ [?(@ == 'b')]" = .ok q ∧
      p.same q = true ∧ p.map Segment.token ≠ q.map Segment.token :=
    ⟨_, _, by cbv, by cbv, by cbv, by simp [Segment.token]⟩
  obtain ⟨hhash, htext, -⟩ := compile_same hp hq hsame
  exact ⟨p, q, hp, hq, hsame, fun heq => hne (congrArg _ heq), htext, hhash⟩

end JsonPath
