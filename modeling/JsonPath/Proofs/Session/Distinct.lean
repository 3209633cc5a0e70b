import JsonPath.Proofs.Evaluation.Distinct
import JsonPath.Proofs.Session.Composition

/-!
# Searches that find each node once

What a query finds without being asked for a node twice stands at distinct locations, and the query
for all descendants finds the whole document but its root.
-/

namespace JsonPath

variable {session : Session} {query : Query} {logging : Bool} {data : Value} {root? : Option Value}

/-- **No node is selected twice unless the query asks for it.** In whatever session, a query finds
nodes at distinct locations if each of its segments holds one selector and at most one of them goes
to the descendants. -/
theorem nodup_find {nodes : List Node} (hone : ∀ segment ∈ query, segment.selectors.length = 1)
    (hdescendants : query.countP Segment.isDescendant ≤ 1) (hdata : data.isJson = true)
    (h : session.find logging query data root? = .ok nodes) :
    (nodes.map Node.location).Nodup :=
  Run.of_yields (query.evaluate_distinct hone hdescendants hdata) (Prod.ext h rfl)

/-- A filter before the descendant segment and a slice that counts down after it. -/
theorem nodup_find_filter :
    let pair := Value.array [.string "x", .array [.string "y", .string "z"]]
    let data := Value.object [("a", pair), ("b", .array [pair])]
    let session := Session.start Environment.standard
    ∃ query nodes, Environment.standard.compile "$[?@]..[::-1]" = .ok query ∧
      (∀ segment ∈ query, segment.selectors.length = 1) ∧
      query.countP Segment.isDescendant ≤ 1 ∧ data.isJson = true ∧
      session.find true query data none = .ok nodes ∧ nodes.length = 9 ∧
      (nodes.map Node.location).Nodup := by
  intro pair data session
  obtain ⟨query, nodes, hquery, hone, hdescendants, hfind, hlength⟩ : ∃ query nodes,
      Environment.standard.compile "$[?@]..[::-1]" = .ok query ∧
      (∀ segment ∈ query, segment.selectors.length = 1) ∧
      query.countP Segment.isDescendant ≤ 1 ∧
      session.find true query data none = .ok nodes ∧ nodes.length = 9 :=
    ⟨_, _, by cbv, by simp [Segment.selectors], by simp [Segment.isDescendant], by cbv, rfl⟩
  have hdata : data.isJson = true := by decide
  exact ⟨query, nodes, hquery, hone, hdescendants, hdata, hfind, hlength,
    nodup_find hone hdescendants hdata hfind⟩

/-! ### All descendants -/

theorem Environment.compile_descendants (environment : Environment) :
    environment.compile "$..*" = .ok [.descendant ⟨.doubleDot, "..", 1, 3, "$..*"⟩
      [.wildcard ⟨.wildcard, "*", 3, 4, "$..*"⟩]] := by
  cbv

theorem Segment.apply_descendants {m : Type → Type} [Monad m] [LawfulMonad m] (host : Host m)
    (token mark : Token) (node : Node) :
    (Segment.descendant token [.wildcard mark]).apply host (fun picked => pure [picked]) node =
      pure (node.descendants.flatMap Node.children) := by
  simp only [Segment.apply, selectEach_eq_gather, gather_singleton, Selector.select, pure_bind,
    gather_pure]
  rw [← gather_pure, gather_flatMap]
  simp only [gather_pure]

/-- With the log written or not, all children of the nodes of the walk are found. -/
theorem Session.find_descendants (session : Session) (logging : Bool) (token mark : Token)
    (data : Value) (root? : Option Value) :
    session.find logging [.descendant token [.wildcard mark]] data root? =
      .ok ((Node.start data root?).descendants.flatMap Node.children) := by
  let query : Query := [.descendant token [.wildcard mark]]
  let start := Node.start data root?
  have htraces : Run.host.traces.run.run (session.prepare logging).workspace =
      (.ok logging, (session.prepare logging).workspace) := rfl
  have hdepth : depthFirst Run.host query start =
      pure (start.descendants.flatMap Node.children) :=
    Segment.apply_descendants Run.host token mark start
  have hbreadth : breadthFirst Run.host query query [start] =
      Run.host.matched query (.descendant token [.wildcard mark])
        (start.descendants.flatMap Node.children).length >>= fun _ =>
          pure (start.descendants.flatMap Node.children) := by
    rw [breadthFirst, gather_singleton, Segment.apply_descendants, pure_bind]
    rfl
  unfold find Query.evaluate Host.search
  rw [Run.bind_ok htraces]
  cases logging with
  | false => exact congrArg (fun run : Run (List Node) => (run.run.run _).1) hdepth
  | true => exact congrArg (fun run : Run (List Node) => (run.run.run _).1) hbreadth

/-- **The descendant walk goes through the whole tree once, in document order.** It comes to each
location in the value of a node, with the value that stands there, and to nothing else. A node comes
before everything below it; below two children of one value, what is below the child that stands
first comes first. So the query for all descendants finds each node of a document once, but for the
root, and it never fails. -/
theorem descendants_in_order {node : Node} (h : node.value.isJson = true) :
    let locations := node.descendants.map Node.location
    (∀ n, n ∈ node.descendants ↔ ∃ inner, node.value.at? inner = some n.value ∧
      n.location = node.location ++ inner ∧ n.root = node.root) ∧
    locations.Nodup ∧
    (∀ inner step rest, (node.value.at? (inner ++ step :: rest)).isSome = true →
      [node.location ++ inner, node.location ++ (inner ++ step :: rest)].Sublist locations) ∧
    (∀ common parent step step' rest rest', node.value.at? common = some parent → step ≠ step' →
      (parent.at? (step :: rest)).isSome = true → (parent.at? (step' :: rest')).isSome = true →
      ([node.location ++ (common ++ step :: rest),
          node.location ++ (common ++ step' :: rest')].Sublist locations ↔
        [step, step'].Sublist (parent.children.map Prod.fst))) ∧
    ∀ environment : Environment, ∃ query, environment.compile "$..*" = .ok query ∧
      ∀ (session : Session) (logging : Bool) (data : Value) (root? : Option Value),
        data.isJson = true → ∃ nodes, session.find logging query data root? = .ok nodes ∧
          (nodes.map Node.location).Nodup ∧
          ∀ n, n ∈ nodes ↔ n.location ≠ [] ∧ data.at? n.location = some n.value ∧
            n.root = (Node.start data root?).root := by
  intro locations
  refine ⟨fun n => Node.mem_descendants_iff h, Node.nodup_descendants h, ?_, ?_, ?_⟩
  · intro inner step rest hat
    obtain ⟨found, hfound⟩ := Option.isSome_iff_exists.1 hat
    obtain ⟨parent, hparent, hbelow⟩ :=
      Option.bind_eq_some_iff.1 ((Value.at?_append ..).symm.trans hfound)
    have hsome : (parent.at? (step :: rest)).isSome = true := by rw [hbelow]; rfl
    have hfirst := Value.nil_sublist_locations (Value.isJson_of_at? h hparent) hsome
    have hpair := (Value.pair_sublist_locations_iff h hparent rfl hsome (by simp)).2 hfirst
    rw [List.append_nil] at hpair
    exact (node.pair_sublist_descendants_iff _ _).2 hpair
  · intro common parent step step' rest rest' hparent hne hat hat'
    rw [Node.pair_sublist_descendants_iff, Value.pair_sublist_locations_iff h hparent hat hat'
      (by simp [hne])]
    exact Value.sublist_locations_iff (Value.isJson_of_at? h hparent) hat hat' hne
  · intro environment
    let query : Query := [.descendant ⟨.doubleDot, "..", 1, 3, "$..*"⟩
      [.wildcard ⟨.wildcard, "*", 3, 4, "$..*"⟩]]
    refine ⟨query, environment.compile_descendants, fun session logging data root? hdata => ?_⟩
    have hdistinct : Yields (query.evaluate Run.host (Node.start data root?)) Node.Distinct :=
      query.evaluate_distinct (by simp [query, Segment.selectors])
        (by simp [query, Segment.isDescendant]) hdata
    have hfind := session.find_descendants logging ⟨.doubleDot, "..", 1, 3, "$..*"⟩
      ⟨.wildcard, "*", 3, 4, "$..*"⟩ data root?
    refine ⟨_, hfind, Run.of_yields hdistinct (Prod.ext hfind rfl), fun n => ?_⟩
    rw [Node.mem_flatMap_children_iff hdata]
    simp [Node.start]

/-- An array in an object, in a node that is not the root. -/
theorem descendants_in_order_object :
    let value : Value := .object
      [("b", .array [.string "x", .object [("a", .null)]]), ("a", .string "z")]
    let node : Node := ⟨value, [.name "r"], .object [("r", value)]⟩
    node.value.isJson = true ∧
      ⟨.null, [.name "r", .name "b", .index 1, .name "a"], node.root⟩ ∈ node.descendants ∧
      [[.name "r", .name "b", .index 1, .name "a"], [.name "r", .name "a"]].Sublist
        (node.descendants.map Node.location) := by
  intro value node
  have hjson : node.value.isJson = true := by decide
  obtain ⟨hmem, -, -, hbeside, -⟩ := descendants_in_order hjson
  refine ⟨hjson, (hmem _).2 ⟨[.name "b", .index 1, .name "a"], rfl, rfl, rfl⟩, ?_⟩
  exact (hbeside [] value (.name "b") (.name "a") [.index 1, .name "a"] [] rfl (by decide) rfl
    rfl).2 (by decide)

end JsonPath
