import JsonPath.Proofs.Canonical.Indifference
import JsonPath.Proofs.Evaluation.Composition
import JsonPath.Proofs.Parser.Composition
import JsonPath.Proofs.Session.History

/-!
# Queries compose

The text of a query, with what could stand after a `$` written behind it, is a query that finds what
the second part finds from each node that the first part has found.
-/

namespace JsonPath

namespace Session

/-- What a query finds in the session, with or without the log. -/
def find (session : Session) (logging : Bool) (query : Query) (data : Value)
    (root? : Option Value) : Except Fault (List Node) :=
  ((query.evaluate Run.host (Node.start data root?)).run.run (session.prepare logging).workspace).1

variable {session : Session} {frame : Frame} {logging : Bool} {ledger : Ledger} {query : Query}

theorem Follows.find_eq (h : session.Follows Extension.Keeps frame logging ledger) (logging' : Bool)
    (query : Query) (data : Value) (root? : Option Value) :
    session.find logging' query data root? =
      query.evaluate (frame.host logging') (Node.start data root?) := by
  have hhost : Run.host.Related (Run.Follows Extension.Keeps (frame.setting logging'))
    (frame.host logging') := Run.Follows.host Extension.Sound.lasting
  obtain ⟨after, hrun, -⟩ := hhost.evaluate query (Node.start data root?) _
    (h.prepare logging').workspace
  exact congrArg Prod.fst hrun

theorem Follows.toOption_find (h : session.Follows Extension.Keeps frame logging ledger)
    (logging' : Bool) (query : Query) (data : Value) (root? : Option Value) :
    (session.find logging' query data root?).toOption =
      frame.rules.find query (Node.start data root?) := by
  rw [h.find_eq, ← frame.rules.toOption_evaluate logging']
  rfl

theorem Follows.find_eq_ok_iff (h : session.Follows Extension.Keeps frame logging ledger)
    {logging' : Bool} {data : Value} {root? : Option Value} {nodes : List Node} :
    session.find logging' query data root? = .ok nodes ↔
      frame.rules.find query (Node.start data root?) = some nodes := by
  rw [← h.toOption_find logging']
  exact ⟨congrArg Except.toOption, Except.eq_ok_of_toOption⟩

/-- Where the tokens of a query stand has no part in what it finds. -/
theorem find_congr {query' : Query} (h : bareSegments query = bareSegments query')
    (session : Session) (logging : Bool) (data : Value) (root? : Option Value) :
    session.find logging query data root? = session.find logging query' data root? := by
  obtain ⟨result, after, after', hrun, hrun', -⟩ :=
    Query.evaluate_alike h (Node.start data root?) _ _ (.refl (session.prepare logging).workspace)
  unfold find
  rw [hrun, hrun']

end Session

theorem bareSegments_append (first second : Query) :
    bareSegments (first ++ second) = bareSegments first ++ bareSegments second := by
  induction first with
  | nil => rfl
  | cons segment rest ih => rw [List.cons_append, bareSegments, bareSegments, ih, List.cons_append]

/-- **Queries compose by concatenation.** What can stand after a `$` can also stand after a query.
The text of both has the segments of both, and whatever has been done in a session before, it finds
what the second part finds from each value that the first part has found. What a host function
returns depends on its arguments only, so that it does not matter in which order it is called. -/
theorem compile_append {environment : Environment} {a b : Text} {first second : Query}
    (ha : environment.compile a = .ok first) (hb : environment.compile ("$" ++ b) = .ok second) :
    ∃ query, environment.compile (a ++ b) = .ok query ∧
      query = movedSegments (a ++ b) 0 first ++ movedSegments (a ++ b) (a.length - 1) second ∧
      ∀ (sizes : Text → Nat) (history : List LoggedCommand),
        (∀ step ∈ history, step.2.isSteady = true) →
        ∀ (logging : Bool) (data : Value) (nodes : List Node) (found : Node → List Node),
          let session := (Session.start (environment.renewed sizes)).after history
          session.find logging first data none = .ok nodes →
          (∀ node ∈ nodes,
            session.find logging second node.value (some data) = .ok (found node)) →
          session.find logging query data none =
            .ok (nodes.flatMap fun node => (found node).map (Node.under node.location)) := by
  refine ⟨_, Query.ofText_append ha hb, rfl, ?_⟩
  intro sizes history hsteady logging data nodes found session hfirst hsecond
  let rules := environment.frame.rules
  obtain ⟨_, hsession⟩ := (Session.start_follows environment sizes).after hsteady
  have hfind {query : Query} {start : Value} {root? : Option Value} {nodes : List Node}
      (h : session.find logging query start root? = .ok nodes) :
      rules.find query (Node.start start root?) = some nodes := by
    rw [← rules.toOption_evaluate logging]
    exact congrArg Except.toOption ((hsession.find_eq logging query start root?).symm.trans h)
  have hboth := rules.find_append_eq_some first second data (hfind hfirst)
    fun node hnode => hfind (hsecond node hnode)
  have hbare : bareSegments (movedSegments (a ++ b) 0 first ++
      movedSegments (a ++ b) (a.length - 1) second) = bareSegments (first ++ second) := by
    rw [bareSegments_append, bareSegments_append, bareSegments_moved, bareSegments_moved]
  -- In the joint text the tokens of the second part stand further on, which no search can tell.
  rw [Session.find_congr hbare, hsession.find_eq logging]
  exact Except.eq_ok_of_toOption ((rules.toOption_evaluate logging _ _).trans hboth)

/-- A filter that is written behind a query, in which a `$` still stands for the whole data. -/
theorem compile_append_filter :
    let data := Value.object [("a", .array [.string "x", .string "y"]), ("b", .string "y")]
    let session := (Session.start (Environment.standard.renewed fun _ => 1)).after []
    ∃ first second query, Environment.standard.compile "$.a" = .ok first ∧
      Environment.standard.compile ("$" ++ "[?@==$.b]") = .ok second ∧
      Environment.standard.compile ("$.a" ++ "[?@==$.b]") = .ok query ∧
      session.find true query data none = .ok [⟨.string "y", [.name "a", .index 1], data⟩] := by
  intro data session
  obtain ⟨first, hfirst, hnodes⟩ : ∃ first, Environment.standard.compile "$.a" = .ok first ∧
      session.find true first data none =
        .ok [⟨.array [.string "x", .string "y"], [.name "a"], data⟩] := ⟨_, by cbv, by cbv⟩
  obtain ⟨second, hsecond, hfound⟩ : ∃ second,
      Environment.standard.compile ("$" ++ "[?@==$.b]") = .ok second ∧
      session.find true second (.array [.string "x", .string "y"]) (some data) =
        .ok [⟨.string "y", [.index 1], data⟩] := ⟨_, by cbv, by cbv⟩
  obtain ⟨query, hquery, -, hfind⟩ := compile_append hfirst hsecond
  refine ⟨first, second, query, hfirst, hsecond, hquery, ?_⟩
  exact hfind (fun _ => 1) [] (List.forall_mem_nil _) true data _
    (fun _ => [⟨.string "y", [.index 1], data⟩]) hnodes (by simpa using hfound)

end JsonPath
