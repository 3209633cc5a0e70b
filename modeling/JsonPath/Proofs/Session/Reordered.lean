import JsonPath.Proofs.Extension.Reordered
import JsonPath.Proofs.Extension.Standard
import JsonPath.Proofs.Session.Composition

/-!
# The order of members decides the order of results only

In two documents that are the same up to the order of members, a query finds the same locations,
each as often in the one as in the other, and at each of them values that are the same up to order.
The one search fails if and only if the other does.
-/

namespace JsonPath

variable {environment : Environment} {settings : Extension.PatternSettings} {text : Text}
  {query : Query}

theorem Environment.renewed_of_standard (h : environment.functions = Extension.standard settings) :
    environment.renewed (fun _ => settings.cacheSize) = environment := by
  obtain ⟨least, greatest, functions⟩ := environment
  cases h
  rfl

theorem Environment.frame_ignoresOrder (h : environment.functions = Extension.standard settings) :
    environment.frame.rules.IgnoreOrder := by
  intro name rule hrule
  obtain ⟨extension, hfind, rfl⟩ := Option.map_eq_some_iff.1 hrule
  rw [h] at hfind
  exact Extension.standard_ignoresOrder hfind 0

namespace Rules

variable {rules : Rules} {d e : Value} {ns ms : List Node}

/-- What is found in one of the documents is found in the other, in another order. -/
theorem find_shuffled (hrules : rules.IgnoreOrder) (h : d.Alike e) (query : Query) :
    Option.Rel (Shuffled Node.Alike) (rules.find query (Node.start d none))
      (rules.find query (Node.start e none)) :=
  depthFirst_alike hrules query (Node.alike_start h)

end Rules

namespace Session

variable {session : Session} {logging : Bool} {ledger : Ledger} {data : Value} {nodes : List Node}

/-- What is found in a document stands at its location. -/
theorem at?_of_find (hdata : data.isJson = true)
    (h : session.find logging query data none = .ok nodes) {node : Node} (hnode : node ∈ nodes) :
    data.at? node.location = some node.value := by
  have hreaches := Run.of_yields (query.evaluate_yields (Node.start data none))
    (Prod.ext h rfl) node hnode
  exact (Node.at?_of_reaches hdata hreaches).1

/-- Lenient standard functions fail by their engine only. -/
theorem isEngineFault_of_find (hfunctions : environment.functions = Extension.standard settings)
    (hlenient : settings.strict = false) (hquery : environment.compile text = .ok query)
    (hdata : data.isJson = true)
    (hsession : session.Follows Extension.Keeps environment.frame logging ledger) {fault : Fault}
    {logging' : Bool} (h : session.find logging' query data none = .error fault) :
    fault.IsEngineFault := by
  obtain ⟨ts, final, -, hderives⟩ := Grammar.ofText_eq_ok_iff.1 hquery
  have hwell : segmentsWellTyped environment.functions.signatures query := hderives.wellTyped
  have hnode : (Node.start data none).IsJson := .start hdata (by simp)
  -- Caches have no part in what is found, so the search can as well be the first one.
  have hstart := start_follows environment fun _ => settings.cacheSize
  rw [Environment.renewed_of_standard hfunctions] at hstart
  rw [hsession.find_eq, ← hstart.find_eq] at h
  let workspace := ((start environment).prepare logging').workspace
  have hkeeps : workspace.Keeps environment.functions.signatures Fault.IsEngineFault :=
    ⟨rfl, fun name extension hfind => by
      have hstandard : workspace.functions = Extension.standard settings := hfunctions
      rw [hstandard] at hfind
      exact Extension.standard_keeps hlenient hfind⟩
  have hfaithful : Faithful environment.functions.signatures Fault.IsEngineFault
      (query.checked Run.host.lift (Node.start data none))
      (query.evaluate Run.host (Node.start data none)) (Found (Query.isSingular query = true) 1) :=
    .search (faithful_depthFirst query hwell _ hnode)
      (faithful_breadthFirst query query hwell _ (by simpa using hnode))
  obtain ⟨result, after, hrun, -, -, hmeets⟩ := hfaithful workspace hkeeps
  obtain rfl : result = .error fault := (congrArg Prod.fst hrun).symm.trans h
  exact hmeets

end Session

/-- **The order of members decides the order of results only.** In an environment with the standard
functions, whose tests against patterns are lenient, let two documents be the same up to the order
of members. Whatever has been done before, the one search fails if and only if the other does, and
then by the engine of patterns; otherwise they find the same locations, each the same number of
times, and at each of them values that are the same up to order. -/
theorem find_reordered (hfunctions : environment.functions = Extension.standard settings)
    (hlenient : settings.strict = false) (hquery : environment.compile text = .ok query)
    {history history' : List LoggedCommand} (hsteady : ∀ step ∈ history, step.2.isSteady = true)
    (hsteady' : ∀ step ∈ history', step.2.isSteady = true) (logging logging' : Bool) {d e : Value}
    (hdata : d.isJson = true) (h : d.Reordered e) :
    let result := ((Session.start environment).after history).find logging query d none
    let result' := ((Session.start environment).after history').find logging' query e none
    (∃ fault fault', result = .error fault ∧ result' = .error fault' ∧ fault.IsEngineFault ∧
      fault'.IsEngineFault) ∨
    ∃ ns ms, result = .ok ns ∧ result' = .ok ms ∧
      (ns.map (·.location)).Perm (ms.map (·.location)) ∧
      ∀ n ∈ ns, ∀ m ∈ ms, n.location = m.location → n.value.Reordered m.value := by
  intro result result'
  have hstart := Session.start_follows environment fun _ => settings.cacheSize
  rw [Environment.renewed_of_standard hfunctions] at hstart
  obtain ⟨_, hsession⟩ := hstart.after hsteady
  obtain ⟨_, hsession'⟩ := hstart.after hsteady'
  have hdata' : e.isJson = true := h.isJson hdata
  have hrel : Option.Rel (Shuffled Node.Alike) result.toOption result'.toOption := by
    rw [hsession.toOption_find, hsession'.toOption_find]
    exact Rules.find_shuffled (Environment.frame_ignoresOrder hfunctions) ⟨hdata, h⟩ query
  cases hresult : result with
  | error fault =>
    rw [hresult] at hrel
    cases hresult' : result' with
    | ok ms =>
      rw [hresult'] at hrel
      cases hrel
    | error fault' =>
      exact .inl ⟨fault, fault', rfl, rfl,
        Session.isEngineFault_of_find hfunctions hlenient hquery hdata hsession hresult,
        Session.isEngineFault_of_find hfunctions hlenient hquery hdata' hsession' hresult'⟩
  | ok ns =>
    rw [hresult] at hrel
    cases hresult' : result' with
    | error fault' =>
      rw [hresult'] at hrel
      cases hrel
    | ok ms =>
      rw [hresult'] at hrel
      cases hrel with
      | some hshuffled =>
        refine .inr ⟨ns, ms, rfl, rfl, hshuffled.perm_map fun _ _ hnm => hnm.location, ?_⟩
        intro n hn m hm hlocation
        -- Whatever is found at the location has the value that stands there.
        obtain ⟨m', hm', hnm⟩ := hshuffled.exists_of_mem hn
        have hat := Session.at?_of_find hdata' hresult' hm
        rw [← hlocation, hnm.location, Session.at?_of_find hdata' hresult' hm'] at hat
        rw [← Option.some.inj hat]
        exact hnm.value.reordered

/-- A filter that compares objects, in documents whose objects stand in another order at both
depths. -/
theorem find_reordered_comparison :
    let point : Value := .object [("x", .string "1"), ("y", .string "2")]
    let point' : Value := .object [("y", .string "2"), ("x", .string "1")]
    let d : Value := .object [("a", point), ("b", point')]
    let e : Value := .object [("b", point), ("a", point)]
    let session := (Session.start Environment.standard).after []
    ∃ query ns ms, Environment.standard.compile "$[?@==$.b]" = .ok query ∧
      session.find true query d none = .ok ns ∧ session.find true query e none = .ok ms ∧
      ns.length = 2 ∧ (ns.map (·.location)).Perm (ms.map (·.location)) ∧
      ∀ n ∈ ns, ∀ m ∈ ms, n.location = m.location → n.value.Reordered m.value := by
  intro point point' d e session
  have hpoint : point.Reordered point :=
    .object (.refl _) (.cons .string (.cons .string .nil))
  have hpoint' : point'.Reordered point :=
    .object (.swap ..) (.cons .string (.cons .string .nil))
  have hreordered : d.Reordered e := .object (.swap ..) (.cons hpoint' (.cons hpoint .nil))
  obtain ⟨query, hquery, hfound⟩ : ∃ query, Environment.standard.compile "$[?@==$.b]" = .ok query ∧
      session.find true query d none = .ok [⟨point, [.name "a"], d⟩, ⟨point', [.name "b"], d⟩] :=
    ⟨_, by cbv, by cbv⟩
  have hfunctions : Environment.standard.functions = Extension.standard .standard := rfl
  rcases find_reordered hfunctions rfl hquery (List.forall_mem_nil _) (List.forall_mem_nil _)
    true true (by decide) hreordered with
    ⟨fault, _, hfault, -⟩ | ⟨ns, ms, hns, hms, hlocations, hvalues⟩
  · cases hfault.symm.trans hfound
  · refine ⟨query, ns, ms, hquery, hns, hms, ?_, hlocations, hvalues⟩
    cases hns.symm.trans hfound
    rfl

end JsonPath
