import Mathlib
import JsonPath.Proofs.Evaluation.Nodes
import JsonPath.Proofs.Evaluation.Registered
import JsonPath.Proofs.Extension.Standard
import JsonPath.Proofs.Parser.Scanning

/-!
# Type soundness

A query that was compiled runs without a breach on every document, with any functions that keep the
declarations it was compiled against. The static rules say of an expression what its result can be;
from that follow the conversions to arguments and operands, and that a query in the place of a value
selects one node at most.
-/

namespace JsonPath

/-! ### Values of documents -/

theorem isJson_of_mem_children {value child : Value} {step : Step} (h : value.isJson = true)
    (hchild : (step, child) ∈ value.children) : child.isJson = true := by
  have hitems (items : List Value) (hitems : areJson items = true)
      (hmem : (step, child) ∈ indexed 0 items) : child.isJson = true := by
    obtain ⟨n, hn, -⟩ := mem_indexed.1 hmem
    exact areJson_iff.1 hitems child (List.mem_of_getElem? hn)
  cases value with
  | array items => exact hitems items h hchild
  | sequence form items =>
    cases form with
    | tuple => exact hitems items h hchild
    | nodeList => cases h
  | object members =>
    simp only [Value.isJson, Bool.and_eq_true] at h
    obtain ⟨member, hmember, heq⟩ := List.mem_map.1 hchild
    cases heq
    exact membersAreJson_iff.1 h.2 member hmember
  | null | boolean | number | string | octets | nothing => cases hchild

theorem Node.isJson_of_mem_children {node child : Node} (h : node.value.isJson = true)
    (hchild : child ∈ node.children) : child.value.isJson = true := by
  obtain ⟨step, value, hmem, rfl⟩ := mem_children_iff.1 hchild
  exact JsonPath.isJson_of_mem_children h hmem

/-- A node in a document. -/
structure Node.IsJson (node : Node) : Prop where
  value : node.value.isJson = true
  root : node.root.isJson = true

namespace Node.IsJson

variable {node below : Node}

theorem child (h : node.IsJson) (hchild : below ∈ node.children) : below.IsJson := by
  refine ⟨isJson_of_mem_children h.value hchild, ?_⟩
  obtain ⟨step, value, -, rfl⟩ := mem_children_iff.1 hchild
  exact h.root

theorem descendant (h : node.IsJson) (hbelow : below ∈ node.descendants) : below.IsJson :=
  (reaches_of_mem_nodeDescendants hbelow).preserves (fun _ ha _ hb => ha.child hb) h

theorem start {value : Value} {root? : Option Value} (h : value.isJson = true)
    (hroot : ∀ root ∈ root?, root.isJson = true) : (Node.start value root?).IsJson := by
  refine ⟨h, ?_⟩
  unfold Node.start
  dsimp only
  split
  · exact h
  · exact h
  next root _ => exact hroot root rfl

end Node.IsJson

theorem isJson_literal (literal : Literal) : literal.value.isJson = true := by
  cases literal <;> rfl

/-! ### What expressions evaluate to -/

/-- Nodes in a document, and no more of them than a bound, where that is asked for. -/
structure Found (bounded : Prop) (bound : Nat) (nodes : List Node) : Prop where
  isJson : ∀ node ∈ nodes, node.IsJson
  length_le : bounded → nodes.length ≤ bound

theorem Found.hasType {bounded : Prop} {bound : Nat} {nodes : List Node}
    (h : Found bounded bound nodes) :
    (Operand.nodes nodes).hasType .nodes = true :=
  List.all_eq_true.2 fun node hnode => (h.isJson node hnode).value

/-- What the static rules say of the result of an expression. -/
def Expr.Yields (signatures : Signatures) (e : Expr) (result : Operand) : Prop :=
  match e with
  | .literal _ l => result = .value l.value
  | .relative _ segments =>
    ∃ nodes, result = .nodes nodes ∧ Found (Query.isSingular segments) 1 nodes
  | .absolute _ segments =>
    ∃ nodes, result = .nodes nodes ∧ Found (Query.isSingular segments) 1 nodes
  | .call _ name _ =>
    ∀ signature, signatures name = some signature → result.hasType signature.result = true
  | _ => True

namespace Expr.Yields

variable {signatures : Signatures} {tolerated : Fault → Prop} {e : Expr} {result : Operand}

theorem found (h : e.Yields signatures result) (he : e.isQuery = true) :
    ∃ nodes, result = .nodes nodes ∧ Found (e.isSingularQuery = true) 1 nodes := by
  cases e <;> first | exact h | cases he

theorem hasType_of_resultType? (h : e.Yields signatures result) {type : ExprType}
    (htype : e.resultType? signatures = some type) : result.hasType type = true := by
  cases e <;> first | cases htype | skip
  next token name arguments =>
    obtain ⟨signature, hname, rfl⟩ := Option.map_eq_some_iff.1 htype
    exact h signature hname

/-- An expression that can be compared comes to a value, and as a query to one node at most. -/
theorem comparable (h : e.Yields signatures result) (he : e.IsComparable signatures) :
    (result.single e).hasType .value = true ∧
      (e.isQuery = true → ∃ nodes, result = .nodes nodes ∧ nodes.length ≤ 1) := by
  rcases he with ⟨token, l, rfl⟩ | hsingular | hvalue
  · obtain rfl : result = .value l.value := h
    refine ⟨?_, fun hquery => by cases hquery⟩
    simp [Operand.single, Operand.hasType, isJson_literal]
  · have hquery : e.isQuery = true := by cases e <;> first | rfl | cases hsingular
    obtain ⟨nodes, rfl, hfound⟩ := h.found hquery
    refine ⟨?_, fun _ => ⟨nodes, rfl, hfound.length_le hsingular⟩⟩
    rcases nodes with _ | ⟨node, _ | ⟨other, rest⟩⟩
    · simp [Operand.single, hquery, Operand.hasType]
    · have hnode := (hfound.isJson node List.mem_cons_self).value
      simp [Operand.single, hquery, Operand.hasType, hnode]
    · have hlength := hfound.length_le hsingular
      simp at hlength
  · have hquery : e.isQuery = false := by cases e <;> first | rfl | cases hvalue
    refine ⟨?_, fun hother => by rw [hquery] at hother; cases hother⟩
    have hsingle : result.single e = result := by
      unfold Operand.single
      split <;> simp_all
    rw [hsingle]
    exact h.hasType_of_resultType? hvalue

theorem checkedSingle_eq (h : e.Yields signatures result) (he : e.IsComparable signatures) :
    (result.checkedSingle e : CheckedRun Operand) = pure (result.single e) := by
  unfold Operand.checkedSingle
  split
  next nodes hquery =>
    obtain ⟨_, hnodes, hlength⟩ := (h.comparable he).2 hquery
    cases hnodes
    rw [decide_eq_true hlength]
    rfl
  next => rfl

theorem comparable_of_fits (hfits : e.fits signatures .value = true) :
    e.IsComparable signatures := by
  unfold Expr.fits at hfits
  dsimp only at hfits
  split at hfits
  next token l => exact .inl ⟨token, l, rfl⟩
  next =>
    simp only [Bool.or_eq_true, beq_iff_eq] at hfits
    exact .inr hfits

/-- An argument that fits comes to an operand of the type of its parameter. -/
theorem argument_hasType (h : e.Yields signatures result) {type : ExprType}
    (hfits : e.fits signatures type = true) : (result.argument e type).hasType type = true := by
  cases type with
  | value => exact (h.comparable (comparable_of_fits hfits)).1
  | logical => rfl
  | nodes =>
    simp only [Expr.fits, Bool.or_eq_true, beq_iff_eq] at hfits
    rcases hfits with hquery | htype
    · obtain ⟨nodes, rfl, hfound⟩ := h.found hquery
      exact hfound.hasType
    · exact h.hasType_of_resultType? htype

theorem checkedArgument_eq (h : e.Yields signatures result) {type : ExprType}
    (hfits : e.fits signatures type = true) :
    (result.checkedArgument e type : CheckedRun Operand) = pure (result.argument e type) := by
  cases type with
  | value => exact h.checkedSingle_eq (comparable_of_fits hfits)
  | logical | nodes => rfl

end Expr.Yields

/-! ### Evaluation -/

section

variable {signatures : Signatures} {tolerated : Fault → Prop}

theorem Found.append {bounded bounded' : Prop} {bound bound' : Nat} {nodes nodes' : List Node}
    (h : Found bounded bound nodes) (h' : Found bounded' bound' nodes') :
    Found (bounded ∧ bounded') (bound + bound') (nodes ++ nodes') where
  isJson := List.forall_mem_append.2 ⟨h.isJson, h'.isJson⟩
  length_le hbounded := by
    rw [List.length_append]
    exact Nat.add_le_add (h.length_le hbounded.1) (h'.length_le hbounded.2)

theorem Found.mono {bounded bounded' : Prop} {bound bound' : Nat} {nodes : List Node}
    (h : Found bounded bound nodes) (hbounded : bounded' → bounded)
    (hbound : bounded' → bound ≤ bound') : Found bounded' bound' nodes :=
  ⟨h.isJson, fun h' => Nat.le_trans (h.length_le (hbounded h')) (hbound h')⟩

theorem Faithful.gather {bounded : Prop} {f : Node → CheckedRun (List Node)}
    {g : Node → Run (List Node)} (h : ∀ node : Node, node.IsJson →
      Faithful signatures tolerated (f node) (g node) (Found bounded 1)) :
    ∀ nodes : List Node, (∀ node ∈ nodes, node.IsJson) →
      Faithful signatures tolerated (JsonPath.gather f nodes) (JsonPath.gather g nodes)
        (Found bounded nodes.length)
  | [], _ => .pure ⟨by simp, by simp⟩
  | node :: rest, hnodes => by
    refine (h node (hnodes node List.mem_cons_self)).bind fun first hfirst => ?_
    refine (Faithful.gather h rest fun other hother =>
      hnodes other (List.mem_cons_of_mem _ hother)).bind fun more hmore => .pure ?_
    exact (hfirst.append hmore).mono (fun hb => ⟨hb, hb⟩) (fun _ => by simp [Nat.add_comm])

theorem Faithful.keep {f : Node → CheckedRun Bool} {g : Node → Run Bool} :
    ∀ nodes : List Node, (∀ node ∈ nodes, Faithful signatures tolerated (f node) (g node)
        fun _ => True) →
      Faithful signatures tolerated (JsonPath.keep f nodes) (JsonPath.keep g nodes)
        (· ⊆ nodes)
  | [], _ => .pure (List.nil_subset _)
  | node :: rest, h => by
    refine (h node List.mem_cons_self).bind fun kept _ => ?_
    refine (Faithful.keep rest fun other hother =>
      h other (List.mem_cons_of_mem _ hother)).bind fun more hmore => .pure ?_
    cases kept with
    | true => exact List.cons_subset_cons _ hmore
    | false => exact List.subset_cons_of_subset _ hmore

theorem found_of_subset {node : Node} {nodes : List Node} (hnode : node.IsJson)
    (h : nodes ⊆ node.children) : Found False 1 nodes :=
  ⟨fun _ hmem => hnode.child (h hmem), False.elim⟩

theorem length_named_le (node : Node) (name : Text) : (node.named name).length ≤ 1 := by
  unfold Node.named
  repeat' split
  all_goals simp

theorem length_indexed_le (node : Node) (index : Int) : (node.indexed index).length ≤ 1 := by
  unfold Node.indexed
  split
  next items _ => cases Node.item? items index <;> simp
  next => simp

mutual

theorem faithful_expr {current root : Value} (hcurrent : current.isJson = true)
    (hroot : root.isJson = true) : ∀ e : Expr, e.WellTyped signatures →
      Faithful signatures tolerated (e.checked Run.host.lift current root)
        (e.evaluate Run.host current root) (e.Yields signatures)
  | .literal _ _, _ => .pure rfl
  | .negation _ operand, h =>
    (faithful_expr hcurrent hroot operand h).bind fun _ _ => .pure trivial
  | .conjunction _ left right, h => by
    refine (faithful_expr hcurrent hroot left h.1).bind fun first _ => ?_
    split
    · exact (faithful_expr hcurrent hroot right h.2).bind fun _ _ => .pure trivial
    · exact .pure trivial
  | .disjunction _ left right, h => by
    refine (faithful_expr hcurrent hroot left h.1).bind fun first _ => ?_
    split
    · exact .pure trivial
    · exact (faithful_expr hcurrent hroot right h.2).bind fun _ _ => .pure trivial
  | .comparison _ left operator right, h => by
    obtain ⟨hleft, hright, hleftComparable, hrightComparable⟩ := h
    refine (faithful_expr hcurrent hroot left hleft).bind fun first hfirst => ?_
    refine (faithful_expr hcurrent hroot right hright).bind fun second hsecond => ?_
    rw [hfirst.checkedSingle_eq hleftComparable, hsecond.checkedSingle_eq hrightComparable]
    exact .ensure (hfirst.comparable hleftComparable).1
      (.ensure (hsecond.comparable hrightComparable).1 (.pure trivial))
  | .relative _ segments, h => by
    have hstart : (Node.start current (some root)).IsJson :=
      .start hcurrent fun _ h => Option.some.inj h ▸ hroot
    refine (Faithful.search ?_ ?_).bind fun found hfound => .pure ⟨found, rfl, hfound⟩
    · exact faithful_depthFirst segments h _ hstart
    · exact faithful_breadthFirst segments segments h _ (by simpa using hstart)
  | .absolute _ segments, h => by
    have hstart : (Node.start root none).IsJson := .start hroot (by simp)
    refine (Faithful.search ?_ ?_).bind fun found hfound => .pure ⟨found, rfl, hfound⟩
    · exact faithful_depthFirst segments h _ hstart
    · exact faithful_breadthFirst segments segments h _ (by simpa using hstart)
  | .call _ name arguments, ⟨harguments, signature, hname, hfits⟩ => by
    refine (Faithful.parameters hname).bind fun parameters hparameters => ?_
    subst hparameters
    refine (faithful_arguments hcurrent hroot arguments harguments _ hfits).bind
      fun given hgiven => ?_
    refine .ensure hgiven ((Faithful.call hname hgiven).mono fun result hresult other hother => ?_)
    rw [hname] at hother
    cases hother
    exact hresult

theorem faithful_arguments {current root : Value} (hcurrent : current.isJson = true)
    (hroot : root.isJson = true) :
    ∀ arguments : List Expr, argumentsWellTyped signatures arguments →
      ∀ parameters : List ExprType, List.Forall₂ (fun argument parameter =>
          argument.fits signatures parameter = true) arguments parameters →
        Faithful signatures tolerated
          (checkedArguments Run.host.lift current root arguments parameters)
          (evaluateArguments Run.host current root arguments parameters)
          (fun given => operandsHaveTypes parameters given = true)
  | [], _, parameters, hfits => by
    cases hfits
    exact .pure rfl
  | argument :: arguments, h, parameters, hfits => by
    cases hfits with
    | @cons _ parameter _ parameters hfit hfits =>
      refine (faithful_expr hcurrent hroot argument h.1).bind fun result hresult => ?_
      refine (faithful_arguments hcurrent hroot arguments h.2 parameters hfits).bind
        fun more hmore => ?_
      rw [hresult.checkedArgument_eq hfit]
      refine .pure ?_
      rw [operandsHaveTypes, hresult.argument_hasType hfit, hmore]
      rfl

theorem faithful_selector {node : Node} (hnode : node.IsJson) : ∀ selector : Selector,
    selector.WellTyped signatures → Faithful signatures tolerated
      (selector.checked Run.host.lift node) (selector.select Run.host node)
      (Found (selector.isSingular = true) 1)
  | .name _ name, _ =>
    .pure ⟨(found_of_subset hnode Node.named_subset).isJson, fun _ => length_named_le node name⟩
  | .index _ index, _ =>
    .pure ⟨(found_of_subset hnode Node.indexed_subset).isJson, fun _ =>
      length_indexed_le node index⟩
  | .wildcard _, _ =>
    .pure ((found_of_subset hnode (List.Subset.refl _)).mono (by simp [Selector.isSingular])
      (by simp))
  | .slice _ _ _ _, _ =>
    .pure ((found_of_subset hnode Node.sliced_subset).mono (by simp [Selector.isSingular])
      (by simp))
  | .filter _ expression, h => by
    refine (Faithful.keep _ fun child hchild => ?_).mono fun nodes hnodes =>
      (found_of_subset hnode hnodes).mono (by simp [Selector.isSingular]) (by simp)
    exact (faithful_expr (hnode.child hchild).value hnode.root expression h).bind
      fun _ _ => .pure trivial

theorem faithful_selectors {node : Node} (hnode : node.IsJson) {bounded : Prop}
    {f : Node → CheckedRun (List Node)} {g : Node → Run (List Node)}
    (hfollow : ∀ node : Node, node.IsJson →
      Faithful signatures tolerated (f node) (g node) (Found bounded 1)) :
    ∀ selectors : List Selector, selectorsWellTyped signatures selectors →
      Faithful signatures tolerated (checkedEach Run.host.lift node f selectors)
        (selectEach Run.host node g selectors)
        (Found ((∀ selector ∈ selectors, selector.isSingular = true) ∧ bounded) selectors.length)
  | [], _ => .pure ⟨by simp, by simp⟩
  | selector :: rest, h => by
    refine (faithful_selector hnode selector h.1).bind fun picked hpicked => ?_
    refine (Faithful.gather hfollow picked hpicked.isJson).bind fun first hfirst => ?_
    refine (faithful_selectors hnode hfollow rest h.2).bind fun more hmore => .pure ?_
    refine (hfirst.append hmore).mono (fun ⟨hsingular, hbounded⟩ => ?_) fun ⟨hsingular, _⟩ => ?_
    · exact ⟨hbounded, (List.forall_mem_cons.1 hsingular).2, hbounded⟩
    · have := hpicked.length_le (hsingular selector List.mem_cons_self)
      rw [List.length_cons]
      omega

theorem faithful_segment {node : Node} (hnode : node.IsJson) {bounded : Prop}
    {f : Node → CheckedRun (List Node)} {g : Node → Run (List Node)}
    (hfollow : ∀ node : Node, node.IsJson →
      Faithful signatures tolerated (f node) (g node) (Found bounded 1)) :
    ∀ segment : Segment, segment.WellTyped signatures →
      Faithful signatures tolerated (segment.checked Run.host.lift f node)
        (segment.apply Run.host g node) (Found (segment.isSingular = true ∧ bounded) 1)
  | .child _ selectors, h => by
    refine (faithful_selectors hnode hfollow selectors h).mono fun nodes hnodes => ?_
    match selectors, hnodes with
    | [selector], hnodes =>
      exact hnodes.mono (fun hsingular => by simpa [Segment.isSingular] using hsingular) (by simp)
    | [], hnodes | _ :: _ :: _, hnodes => exact ⟨hnodes.isJson, by simp [Segment.isSingular]⟩
  | .descendant _ selectors, h => by
    have hvisit (visited : Node) (hvisited : visited.IsJson) :
        Faithful signatures tolerated (checkedEach Run.host.lift visited f selectors)
          (selectEach Run.host visited g selectors) (Found False 1) :=
      (faithful_selectors hvisited hfollow selectors h).mono fun nodes hnodes =>
        ⟨hnodes.isJson, False.elim⟩
    refine (Faithful.gather hvisit _ fun _ hmem => hnode.descendant hmem).mono
      fun nodes hnodes => ?_
    exact ⟨hnodes.isJson, by simp [Segment.isSingular]⟩

theorem faithful_depthFirst : ∀ segments : List Segment, segmentsWellTyped signatures segments →
    ∀ node : Node, node.IsJson → Faithful signatures tolerated
      (checkedDepthFirst Run.host.lift segments node) (depthFirst Run.host segments node)
      (Found (Query.isSingular segments = true) 1)
  | [], _, node, hnode => .pure ⟨by simpa using hnode, by simp⟩
  | segment :: rest, h, node, hnode => by
    refine (faithful_segment hnode (faithful_depthFirst rest h.2) segment h.1).mono
      fun nodes hnodes => hnodes.mono (fun hsingular => ?_) (fun _ => Nat.le_refl _)
    simpa [Query.isSingular] using hsingular

theorem faithful_breadthFirst (query : Query) : ∀ segments : List Segment,
    segmentsWellTyped signatures segments → ∀ nodes : List Node, (∀ node ∈ nodes, node.IsJson) →
      Faithful signatures tolerated (checkedBreadthFirst Run.host.lift query segments nodes)
        (breadthFirst Run.host query segments nodes)
        (Found (Query.isSingular segments = true) nodes.length)
  | [], _, nodes, hnodes => .pure ⟨hnodes, fun _ => Nat.le_refl _⟩
  | segment :: rest, h, nodes, hnodes => by
    have hfollow (node : Node) (hnode : node.IsJson) :
        Faithful signatures tolerated (pure [node]) (pure [node]) (Found True 1) :=
      .pure ⟨by simpa using hnode, fun _ => Nat.le_refl _⟩
    have hsegment (node : Node) (hnode : node.IsJson) :=
      faithful_segment hnode hfollow segment h.1
    refine (Faithful.gather hsegment nodes hnodes).bind fun picked hpicked => ?_
    refine (Faithful.matched query segment picked.length).bind fun _ _ => ?_
    refine (faithful_breadthFirst query rest h.2 picked hpicked.isJson).mono fun found hfound => ?_
    refine hfound.mono (fun hsingular => ?_) fun hsingular => ?_
    · simp_all [Query.isSingular]
    · refine hpicked.length_le ⟨?_, trivial⟩
      simp_all [Query.isSingular]

end

end

/-- A query that was compiled runs without a breach on every document, as long as the declarations
are the ones it was compiled against and are kept. It raises nothing but what the functions may
raise on operands of the declared types. -/
theorem evaluate_of_compile {environment : Environment} {text : Text} {query : Query}
    (hcompile : environment.compile text = .ok query) {tolerated : Fault → Prop}
    {workspace : Workspace}
    (hdeclared : workspace.functions.signatures = environment.functions.signatures)
    (hkept : ∀ name extension, workspace.functions.find? name = some extension →
      extension.KeepsDeclaration tolerated)
    {data : Value} (hdata : data.isJson = true) :
    ∃ result after,
      (query.evaluate Run.host (Node.start data none)).run.run workspace = (result, after) ∧
      (query.checked Run.host.lift (Node.start data none) : CheckedRun _).run.run.run workspace =
        (result.map .ok, after) ∧
      ∀ fault, result = .error fault → tolerated fault := by
  obtain ⟨ts, final, -, hderives⟩ := Grammar.ofText_eq_ok_iff.1 hcompile
  have hquery : segmentsWellTyped environment.functions.signatures query := hderives.wellTyped
  have hnode : (Node.start data none).IsJson := .start hdata (by simp)
  have hfaithful : Faithful environment.functions.signatures tolerated
      (query.checked Run.host.lift (Node.start data none))
      (query.evaluate Run.host (Node.start data none)) (Found (Query.isSingular query = true) 1) :=
    .search (faithful_depthFirst query hquery _ hnode)
      (faithful_breadthFirst query query hquery _ (by simpa using hnode))
  obtain ⟨result, after, hrun, hchecked, -, hmeets⟩ := hfaithful workspace ⟨hdeclared, hkept⟩
  refine ⟨result, after, hrun, hchecked, fun fault hfault => ?_⟩
  subst hfault
  exact hmeets

/-- A test against a pattern, called for each item of an array. -/
theorem evaluate_match_of_compile : ∃ query,
    Environment.standard.compile "$[?match(@, 'a')]" = .ok query ∧ ∃ result after,
      (query.evaluate Run.host (Node.start (.array [.string "a", .null]) none)).run.run
        ⟨Environment.standard.functions, false, []⟩ = (result, after) ∧
      (query.checked Run.host.lift
        (Node.start (.array [.string "a", .null]) none) : CheckedRun _).run.run.run
        ⟨Environment.standard.functions, false, []⟩ = (result.map .ok, after) ∧
      ∀ fault, result = .error fault → fault.IsEngineFault := by
  let text : Text := "$[?match(@, 'a')]"
  have hcompile : Environment.standard.compile text =
      .ok [.child ⟨.openSquare, "[", 1, 2, text⟩ [.filter ⟨.filter, "?", 2, 3, text⟩
        (.call ⟨.function, "match", 3, 8, text⟩ "match" [.relative ⟨.current, "@", 9, 10, text⟩ [],
          .literal ⟨.singleQuoted, "a", 12, 15, text⟩ (.string "a")])]] := by
    subst text
    cbv
  exact ⟨_, hcompile, evaluate_of_compile hcompile rfl
    (fun _ _ hfind => Extension.standard_keeps rfl hfind) rfl⟩

end JsonPath
