import Mathlib
import JsonPath.Proofs.Evaluation.Eagerness
import JsonPath.Proofs.Session.Ledger

/-!
# Searches of a session, lazy and traced

With functions that depend on their arguments only, it makes no difference to what a session finds
whether the log is written, and none whether the nodes are asked for together or one by one.
-/

namespace JsonPath

namespace Session

variable {session : Session}

def frame (session : Session) : Frame :=
  ⟨session.leastIndex, session.greatestIndex, session.workspace.functions.rules,
    session.workspace.functions.names⟩

def ledger (session : Session) : Ledger := ⟨session.paths, session.cursors⟩

/-- All functions of the session depend on their arguments only. -/
def DependsOnArguments (session : Session) : Prop :=
  ∀ name extension, session.workspace.functions.find? name = some extension →
    extension.DependsOnArguments

theorem DependsOnArguments.follows (h : session.DependsOnArguments) (logging : Bool) :
    (session.prepare logging).Follows
      (fun rule extension => extension.rule = rule ∧ extension.DependsOnArguments) session.frame
      logging session.ledger :=
  ⟨rfl, rfl, @Workspace.Follows.self (session.prepare logging).workspace _ h, rfl, rfl⟩

/-- The session answers as its ledger does. -/
theorem DependsOnArguments.answer (h : session.DependsOnArguments) (logging : Bool)
    {command : Command} (hcommand : command.isAnswered = true) :
    (session.answer logging command).1 =
      ((Ledger.perform session.frame logging command).run.run session.ledger).1 := by
  obtain ⟨after, hrun, -⟩ := Step.Follows.perform Extension.DependsOnArguments.lasting command
    hcommand _ _ (h.follows logging)
  exact congrArg Prod.fst hrun

end Session

theorem Ledger.reply_of_path {ledger : Ledger} {name : Text} {query : Query}
    (h : ledger.paths.find? (·.1 = name) = some (name, query)) {α : Type}
    (computation : Query → Except Fault α) (reply : α → Reply) :
    ((do
      let query ← entry name (← get).paths
      return reply (← run (computation query)) : Step Reply).run.run ledger).1 =
        ((computation query).mapError .fault).map reply := by
  have hentry : (entry name ledger.paths : Step Query) = pure query := by
    unfold entry
    rw [h]
  change ((entry name ledger.paths >>= _ : Step Reply).run.run ledger).1 = _
  rw [hentry, pure_bind]
  cases computation query <;> rfl

section

variable {session : Session} {name : Text} {query : Query}

theorem Session.find_reply (h : session.DependsOnArguments)
    (hpath : session.paths.find? (·.1 = name) = some (name, query)) (logging : Bool) (data : Value)
    (root? : Option Value) :
    (session.answer logging (.find name data root?)).1 =
      ((query.evaluate (session.frame.host logging) (Node.start data root?)).mapError .fault).map
        .nodes :=
  (h.answer logging rfl).trans (Ledger.reply_of_path hpath _ _)

/-- With the log written a query under a name finds the same nodes as without, or fails with both.
What it finds comes out of a cursor one by one, and the first of it when one node is asked for,
whether the log is then written or not. -/
theorem Session.find_lazy (h : session.DependsOnArguments)
    (hpath : session.paths.find? (·.1 = name) = some (name, query)) (data : Value)
    (root? : Option Value) :
    (session.answer true (.find name data root?)).1.toOption =
      (session.answer false (.find name data root?)).1.toOption ∧
    ∀ logging nodes, (session.answer logging (.find name data root?)).1 = .ok (.nodes nodes) →
      ∀ logging',
        (∃ cursor after, (Cursor.ofQuery Run.host query (Node.start data root?)).run.run
          (session.prepare logging').workspace = (.ok cursor, after) ∧
            cursor.Drains after nodes) ∧
        (root? = none →
          (session.answer logging' (.values name data)).1 = .ok (.values (nodes.map (·.value))) ∧
          (session.answer logging' (.findOne name data)).1 = .ok (.node nodes.head?)) := by
  let rules := session.workspace.functions.rules
  have hfound (logging : Bool) : (session.answer logging (.find name data root?)).1.toOption =
      (rules.find query (Node.start data root?)).map .nodes := by
    have hblind := rules.toOption_evaluate logging query (Node.start data root?)
    rw [find_reply h hpath, ← hblind]
    change (((query.evaluate (rules.host logging) _).mapError _).map _).toOption = _
    cases query.evaluate (rules.host logging) (Node.start data root?) <;> rfl
  -- Both orders come to what the rules find, and so does whatever is pulled in either of them.
  refine ⟨(hfound true).trans (hfound false).symm, fun logging nodes hnodes logging' => ?_⟩
  have hfind : rules.find query (Node.start data root?) = some nodes := by
    have hsome := hfound logging
    rw [hnodes] at hsome
    obtain ⟨found, hfind, heq⟩ := Option.map_eq_some_iff.1 hsome.symm
    cases heq
    exact hfind
  refine ⟨?_, ?_⟩
  · obtain ⟨cursor, hcursor, hrest⟩ := Cursor.rest_ofQuery hfind logging'
    have hfollows := (h.follows logging').workspace
    have hP := Extension.DependsOnArguments.lasting
    obtain ⟨after, hrun, hafter⟩ := (Run.Follows.host hP).ofQuery Run.Follows.traces query
      (Node.start data root?) _ hfollows
    have hsame : Cursor.ofQuery ((session.frame.setting logging').rules.host
      (session.frame.setting logging').logging) query (Node.start data root?) = .ok cursor :=
        hcursor
    rw [hsame] at hrun
    exact ⟨cursor, after, hrun, Cursor.drains_of_rest hP hrest hafter⟩
  · rintro rfl
    have hevaluate := Except.eq_ok_of_toOption
      ((rules.toOption_evaluate logging' query (Node.start data none)).trans hfind)
    have hfirst := Cursor.first?_of_find hfind logging'
    have hvalues : (session.answer logging' (.values name data)).1 =
        ((query.evaluate (rules.host logging') (Node.start data none)).mapError .fault).map
          fun nodes => .values (nodes.map (·.value)) :=
      (h.answer logging' rfl).trans (Ledger.reply_of_path hpath _ _)
    have hone : (session.answer logging' (.findOne name data)).1 =
        ((query.first? (rules.host logging') (Node.start data none)).mapError .fault).map .node :=
      (h.answer logging' rfl).trans (Ledger.reply_of_path hpath _ _)
    rw [hvalues, hone, hevaluate, hfirst]
    exact ⟨rfl, rfl⟩

/-- A test against a pattern, with a cache that fills on the way. -/
theorem Session.find_lazy_match : ∃ query,
    Environment.standard.compile "$[?match(@, 'a')]" = .ok query ∧
    let session := { start Environment.standard with paths := [("p", query)] }
    let data := Value.array [.string "b", .string "a"]
    session.DependsOnArguments ∧
    (session.answer true (.find "p" data none)).1.toOption =
      (session.answer false (.find "p" data none)).1.toOption ∧
    (session.answer true (.values "p" data)).1 = .ok (.values [.string "a"]) := by
  obtain ⟨query, hquery, hnodes⟩ : ∃ query,
      Environment.standard.compile "$[?match(@, 'a')]" = .ok query ∧
      (Session.answer false (.find "p" (.array [.string "b", .string "a"]) none)
        { start Environment.standard with paths := [("p", query)] }).1 =
          .ok (.nodes [⟨.string "a", [.index 1], .array [.string "b", .string "a"]⟩]) :=
    ⟨_, by cbv, by cbv⟩
  have hfunctions : Session.DependsOnArguments
      { start Environment.standard with paths := [("p", query)] } :=
    fun name extension hfind => (Extension.sound_of_standard hfind).dependsOnArguments
  have hpath : [(("p" : Text), query)].find? (·.1 = ("p" : Text)) =
      some (("p" : Text), query) := by simp
  have hlazy := find_lazy hfunctions hpath (.array [.string "b", .string "a"]) none
  exact ⟨query, hquery, hfunctions, hlazy.1, ((hlazy.2 false _ hnodes true).2 rfl).1⟩

end

end JsonPath
