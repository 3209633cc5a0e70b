import JsonPath.Proofs.Evaluation.Found

/-!
# One root for all queries

The reference evaluation is given one root, which it hands on unchanged to all that it evaluates.
The evaluation of queries finds the root anew for each query in a filter, and takes the current
value in its place if the root is null. They come to the same, because a root is only null where
there is nothing to filter.
-/

namespace JsonPath

/-- The root that absolute queries start from: the one that is given, or else the data. A null
stands for no root. -/
def rootFor (data : Value) : Option Value → Value
  | none | some .null => data
  | some root => root

variable {m : Type → Type} [Monad m]

mutual

/-- What an expression evaluates to for a current value, with one root for everything in it. -/
def Expr.anchored (host : Host m) (root current : Value) : Expr → m Operand
  | .literal _ literal => return .value literal.value
  | .negation _ operand => do
    let result ← operand.anchored host root current
    return .value (.boolean (!result.holds operand))
  | .conjunction _ left right => do
    let first ← left.anchored host root current
    if first.holds left then
      let second ← right.anchored host root current
      return .value (.boolean (second.holds right))
    else return .value (.boolean false)
  | .disjunction _ left right => do
    let first ← left.anchored host root current
    if first.holds left then return .value (.boolean true)
    else
      let second ← right.anchored host root current
      return .value (.boolean (second.holds right))
  | .comparison _ left operator right => do
    let first ← left.anchored host root current
    let second ← right.anchored host root current
    return .value (.boolean
      (operator.holds (first.single left).asValue (second.single right).asValue))
  | .relative _ segments => do
    let found ← host.search
      (fun _ => anchoredDepthFirst host root segments ⟨current, [], root⟩)
      (fun _ => anchoredBreadthFirst host root segments segments [⟨current, [], root⟩])
    return .nodes found
  | .absolute _ segments => do
    let found ← host.search
      (fun _ => anchoredDepthFirst host root segments ⟨root, [], root⟩)
      (fun _ => anchoredBreadthFirst host root segments segments [⟨root, [], root⟩])
    return .nodes found
  | .call _ name arguments => do
    let parameters ← host.parameters name
    host.call name (← anchoredArguments host root current arguments parameters)

def anchoredArguments (host : Host m) (root current : Value) :
    List Expr → List ExprType → m (List Operand)
  | argument :: arguments, parameter :: parameters => do
    let result ← argument.anchored host root current
    let more ← anchoredArguments host root current arguments parameters
    return result.argument argument parameter :: more
  | _, _ => return []

def Selector.anchored (host : Host m) (root : Value) (node : Node) : Selector → m (List Node)
  | .name _ name => return node.named name
  | .index _ index => return node.indexed index
  | .wildcard _ => return node.children
  | .slice _ start? stop? step? => return node.sliced start? stop? step?
  | .filter _ expression =>
    keep (fun child => do
      let result ← expression.anchored host root child.value
      return result.holds expression) node.children

def anchoredEach (host : Host m) (root : Value) (node : Node) (follow : Node → m (List Node)) :
    List Selector → m (List Node)
  | [] => return []
  | selector :: rest => do
    let picked ← selector.anchored host root node
    let first ← gather follow picked
    let more ← anchoredEach host root node follow rest
    return first ++ more

def Segment.anchored (host : Host m) (root : Value) (follow : Node → m (List Node)) (node : Node) :
    Segment → m (List Node)
  | .child _ selectors => anchoredEach host root node follow selectors
  | .descendant _ selectors =>
    gather (fun visited => anchoredEach host root visited follow selectors) node.descendants

def anchoredDepthFirst (host : Host m) (root : Value) : List Segment → Node → m (List Node)
  | [], node => return [node]
  | segment :: rest, node => segment.anchored host root (anchoredDepthFirst host root rest) node

def anchoredBreadthFirst (host : Host m) (root : Value) (query : Query) :
    List Segment → List Node → m (List Node)
  | [], nodes => return nodes
  | segment :: rest, nodes => do
    let picked ←
      gather (fun node => segment.anchored host root (fun picked => return [picked]) node) nodes
    host.matched query segment picked.length
    anchoredBreadthFirst host root query rest picked

end

/-- The nodes that a query selects from the data, with one root for everything in it. -/
def Query.anchored (host : Host m) (root : Value) (query : Query) (data : Value) : m (List Node) :=
  host.search (fun _ => anchoredDepthFirst host root query ⟨data, [], root⟩)
    (fun _ => anchoredBreadthFirst host root query query [⟨data, [], root⟩])

/-! ### The root of nodes -/

open Node (Reaches)

/-- The node has the root, and the root is not null unless the node has nothing below it. -/
structure Node.IsAnchored (root : Value) (node : Node) : Prop where
  root_eq : node.root = root
  value_eq : root = .null → node.value = .null

namespace Node.IsAnchored

variable {root : Value} {node below : Node}

theorem of_ne_null (hroot : root ≠ .null) (h : node.root = root) : node.IsAnchored root :=
  ⟨h, fun hnull => absurd hnull hroot⟩

/-- Where there is a child the root is not null. -/
theorem ne_null (h : node.IsAnchored root) (hchild : below ∈ node.children) : root ≠ .null := by
  intro hnull
  obtain ⟨step, value, hmem, -⟩ := mem_children_iff.1 hchild
  rw [h.value_eq hnull] at hmem
  cases hmem

theorem child (h : node.IsAnchored root) (hchild : below ∈ node.children) :
    below.IsAnchored root := by
  obtain ⟨step, value, -, rfl⟩ := mem_children_iff.1 hchild
  exact of_ne_null (h.ne_null hchild) h.root_eq

theorem reaches (h : node.IsAnchored root) (hbelow : Reaches node below) : below.IsAnchored root :=
  hbelow.preserves (fun _ ha _ hb => ha.child hb) h

theorem start (data : Value) (root? : Option Value) :
    (Node.start data root?).IsAnchored (rootFor data root?) ∧
      Node.start data root? = ⟨data, [], rootFor data root?⟩ := by
  match root? with
  | none | some .null => exact ⟨⟨rfl, id⟩, rfl⟩
  | some (.boolean _) | some (.number _) | some (.string _) | some (.array _)
  | some (.sequence _ _) | some (.object _) | some (.octets _) | some .nothing =>
    exact ⟨of_ne_null (by simp [rootFor]) rfl, rfl⟩

end Node.IsAnchored

/-! ### The evaluations agree -/

section

variable {α β : Type}

theorem gather_congr {f g : α → m (List β)} {items : List α} (h : ∀ a ∈ items, f a = g a) :
    gather f items = gather g items := by
  induction items with
  | nil => rfl
  | cons a rest ih =>
    obtain ⟨ha, hrest⟩ := List.forall_mem_cons.1 h
    rw [gather, gather, ha, ih hrest]

theorem keep_congr {f g : α → m Bool} {items : List α} (h : ∀ a ∈ items, f a = g a) :
    keep f items = keep g items := by
  induction items with
  | nil => rfl
  | cons a rest ih =>
    obtain ⟨ha, hrest⟩ := List.forall_mem_cons.1 h
    rw [keep, keep, ha, ih hrest]

end

variable {host : Host Run} {root : Value}

theorem start_of_ne_null (hroot : root ≠ .null) (current : Value) :
    Node.start current (some root) = ⟨current, [], root⟩ := by
  unfold Node.start
  split <;> simp_all

mutual

theorem Expr.eq_anchored (hroot : root ≠ .null) (current : Value) :
    ∀ e : Expr, e.evaluate host current root = e.anchored host root current
  | .literal _ _ => rfl
  | .negation _ operand => by
    rw [Expr.evaluate, Expr.anchored, Expr.eq_anchored hroot current operand]
  | .conjunction _ left right | .disjunction _ left right | .comparison _ left _ right => by
    rw [Expr.evaluate, Expr.anchored, Expr.eq_anchored hroot current left,
      Expr.eq_anchored hroot current right]
  | .relative _ query => by
    -- The root that is handed to the query is taken for its root, because it is not null.
    have hstart := Node.IsAnchored.of_ne_null hroot (rfl : (⟨current, [], root⟩ : Node).root = root)
    rw [Expr.evaluate, Expr.anchored, start_of_ne_null hroot current,
      depthFirst_eq_anchored query _ hstart,
      breadthFirst_eq_anchored query query _ (by simpa using hstart)]
  | .absolute _ query => by
    have hstart := Node.IsAnchored.of_ne_null hroot (rfl : (⟨root, [], root⟩ : Node).root = root)
    have hnone : Node.start root none = ⟨root, [], root⟩ := rfl
    rw [Expr.evaluate, Expr.anchored, hnone, depthFirst_eq_anchored query _ hstart,
      breadthFirst_eq_anchored query query _ (by simpa using hstart)]
  | .call _ name given => by
    rw [Expr.evaluate, Expr.anchored]
    refine bind_congr fun parameters => ?_
    rw [arguments_eq_anchored hroot current given parameters]

theorem arguments_eq_anchored (hroot : root ≠ .null) (current : Value) :
    ∀ (given : List Expr) (parameters : List ExprType),
      evaluateArguments host current root given parameters =
        anchoredArguments host root current given parameters
  | [], _ => rfl
  | _ :: _, [] => rfl
  | e :: given, _ :: parameters => by
    rw [evaluateArguments, anchoredArguments, Expr.eq_anchored hroot current e,
      arguments_eq_anchored hroot current given parameters]

theorem Selector.select_eq_anchored {node : Node} (h : node.IsAnchored root) :
    ∀ selector : Selector, selector.select host node = selector.anchored host root node
  | .name _ _ | .index _ _ | .wildcard _ | .slice _ _ _ _ => rfl
  | .filter _ e => by
    -- The expression is evaluated for children only, and where there is one the root is not null.
    rw [Selector.select, Selector.anchored, h.root_eq]
    refine keep_congr fun child hchild => ?_
    rw [Expr.eq_anchored (h.ne_null hchild) child.value e]

theorem selectEach_eq_anchored {node : Node} (h : node.IsAnchored root)
    {follow follow' : Node → Run (List Node)}
    (hfollow : ∀ child, Reaches node child → follow child = follow' child) :
    ∀ selectors : List Selector, selectEach host node follow selectors =
      anchoredEach host root node follow' selectors
  | [] => rfl
  | selector :: rest => by
    rw [selectEach, anchoredEach, ← Selector.select_eq_anchored h selector,
      selectEach_eq_anchored h hfollow rest]
    -- What is followed is not any node: it is reached from this one, and so it has the root.
    refine (selector.select_yields node).congr _ _ fun picked hpicked => ?_
    rw [gather_congr fun child hchild => hfollow child (.down .here (hpicked child hchild))]

theorem Segment.apply_eq_anchored {node : Node} (h : node.IsAnchored root)
    {follow follow' : Node → Run (List Node)}
    (hfollow : ∀ child, Reaches node child → follow child = follow' child) :
    ∀ segment : Segment, segment.apply host follow node = segment.anchored host root follow' node
  | .child _ selectors => selectEach_eq_anchored h hfollow selectors
  | .descendant _ selectors => by
    rw [Segment.apply, Segment.anchored]
    refine gather_congr fun visited hvisited => ?_
    have hreaches := Node.reaches_of_mem_nodeDescendants hvisited
    exact selectEach_eq_anchored (h.reaches hreaches)
      (fun child hchild => hfollow child (hreaches.trans hchild)) selectors

theorem depthFirst_eq_anchored : ∀ (segments : List Segment) (node : Node),
    node.IsAnchored root →
      depthFirst host segments node = anchoredDepthFirst host root segments node
  | [], _, _ => rfl
  | segment :: rest, _, h =>
    Segment.apply_eq_anchored h
      (fun child hchild => depthFirst_eq_anchored rest child (h.reaches hchild)) segment

theorem breadthFirst_eq_anchored (query : Query) : ∀ (segments : List Segment) (nodes : List Node),
    (∀ node ∈ nodes, node.IsAnchored root) →
      breadthFirst host query segments nodes = anchoredBreadthFirst host root query segments nodes
  | [], _, _ => rfl
  | segment :: rest, nodes, h => by
    have hpicked : Yields (gather
        (fun node => segment.apply host (fun picked => return [picked]) node) nodes)
          fun picked => ∀ n ∈ picked, n.IsAnchored root :=
      .gather fun node hnode => segment.apply_yields fun child hchild =>
        .pure (by simpa using (h node hnode).reaches hchild)
    have hsame :
        gather (fun node => segment.apply host (fun picked => return [picked]) node) nodes =
          gather (fun node => segment.anchored host root (fun picked => return [picked]) node)
            nodes :=
      gather_congr fun node hnode =>
        Segment.apply_eq_anchored (h node hnode) (fun _ _ => rfl) segment
    rw [breadthFirst, anchoredBreadthFirst, ← hsame]
    refine hpicked.congr _ _ fun picked hall => bind_congr fun _ => ?_
    exact breadthFirst_eq_anchored query rest picked hall

end

/-- An evaluation comes to the same as one that has one root for everything, and all nodes that it
finds have this root. -/
theorem evaluate_eq_anchored (query : Query) (data : Value) (root? : Option Value) :
    query.evaluate Run.host (Node.start data root?) =
      query.anchored Run.host (rootFor data root?) data ∧
    ∀ workspace nodes after, (query.evaluate Run.host (Node.start data root?)).run.run workspace =
      (.ok nodes, after) → ∀ node ∈ nodes, node.root = rootFor data root? := by
  obtain ⟨hanchored, hstart⟩ := Node.IsAnchored.start data root?
  refine ⟨?_, fun workspace nodes after hrun node hnode => ?_⟩
  · rw [hstart] at hanchored ⊢
    unfold Query.evaluate Query.anchored
    rw [depthFirst_eq_anchored query _ hanchored,
      breadthFirst_eq_anchored query query _ (by simpa using hanchored)]
  · exact (hanchored.reaches (Run.of_yields (query.evaluate_yields _) hrun node hnode)).root_eq

end JsonPath
