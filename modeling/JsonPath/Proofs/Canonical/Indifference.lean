import JsonPath.Proofs.Canonical.Bare
import JsonPath.Proofs.Evaluation.Registered

/-!
# Tokens do not count when a query runs

A query and the same query without its tokens run alike: they come to the same nodes or the same
fault, leave the same functions behind and write the same lines to the log.
-/

namespace JsonPath

theorem Notice.text_matched (query : Query) (segment : Segment) (count : Nat) :
    (Notice.matched query segment count).text = "jsonpath_rfc9535.path: " ++ query.text ++ ": " ++
      segment.text ++ " matched " ++ Text.ofInt count ++ " node(s)" := rfl

/-- The functions are the same and so are the lines of the log, whatever tokens are behind them. -/
structure Workspace.Alike (a b : Workspace) : Prop where
  functions : a.functions = b.functions
  logging : a.logging = b.logging
  log : a.log.map Notice.text = b.log.map Notice.text

namespace Workspace.Alike

variable {a b c : Workspace}

theorem refl (a : Workspace) : a.Alike a := ⟨rfl, rfl, rfl⟩

theorem symm (h : a.Alike b) : b.Alike a := ⟨h.functions.symm, h.logging.symm, h.log.symm⟩

theorem trans (h : a.Alike b) (h' : b.Alike c) : a.Alike c :=
  ⟨h.functions.trans h'.functions, h.logging.trans h'.logging, h.log.trans h'.log⟩

theorem note (h : a.Alike b) {notices notices' : List Notice}
    (hnotices : notices.map Notice.text = notices'.map Notice.text) :
    (a.note notices).Alike (b.note notices') := by
  unfold Workspace.note
  rw [h.logging]
  split
  · refine ⟨h.functions, rfl, ?_⟩
    rw [List.map_append, List.map_append, h.log, hnotices]
  · exact h

end Workspace.Alike

namespace Run

/-- From workspaces that are alike, both computations end in the same way and leave workspaces that
are alike. -/
def Alike {α : Type} (x y : Run α) : Prop :=
  ∀ a b : Workspace, a.Alike b → ∃ result after after', x.run.run a = (result, after) ∧
    y.run.run b = (result, after') ∧ after.Alike after'

namespace Alike

variable {α β : Type} {x y z : Run α}

theorem pure (a : α) : Alike (Pure.pure a) (Pure.pure a) :=
  fun workspace workspace' h => ⟨.ok a, workspace, workspace', rfl, rfl, h⟩

theorem symm (h : Alike x y) : Alike y x := by
  intro a b hab
  obtain ⟨result, after, after', hx, hy, hafter⟩ := h b a hab.symm
  exact ⟨result, after', after, hy, hx, hafter.symm⟩

theorem trans (h : Alike x y) (h' : Alike y z) : Alike x z := by
  intro a b hab
  obtain ⟨result, after, middle, hx, hy, hafter⟩ := h a b hab
  obtain ⟨result', middle', after', hy', hz, hafter'⟩ := h' b b (.refl b)
  obtain ⟨rfl, rfl⟩ := Prod.mk.inj (hy.symm.trans hy')
  exact ⟨result, after, after', hx, hz, hafter.trans hafter'⟩

theorem bind {f g : α → Run β} (h : Alike x y) (hf : ∀ a, Alike (f a) (g a)) :
    Alike (x >>= f) (y >>= g) := by
  intro a b hab
  obtain ⟨result, after, after', hx, hy, hafter⟩ := h a b hab
  cases result with
  | ok item =>
    obtain ⟨result, last, last', hf, hg, hlast⟩ := hf item after after' hafter
    refine ⟨result, last, last', ?_, ?_, hlast⟩
    · rw [bind_ok hx, hf]
    · rw [bind_ok hy, hg]
  | error fault => exact ⟨.error fault, after, after', bind_error hx, bind_error hy, hafter⟩

theorem function (name : Text) : Alike (Run.function name) (Run.function name) := by
  intro a b hab
  have hread (workspace : Workspace) :
      (get : Run Workspace).run.run workspace = (.ok workspace, workspace) := rfl
  unfold Run.function
  rw [bind_ok (hread a), bind_ok (hread b), hab.functions]
  cases b.functions.find? name with
  | some extension => exact ⟨.ok extension, a, b, rfl, rfl, hab⟩
  | none => exact ⟨.error (.unknownName name), a, b, rfl, rfl, hab⟩

theorem parameters (name : Text) :
    Alike (Run.host.parameters name) (Run.host.parameters name) :=
  (function name).bind fun extension => pure extension.signature.parameters

theorem call (name : Text) (given : List Operand) :
    Alike (Run.host.call name given) (Run.host.call name given) := by
  refine (function name).bind fun extension => ?_
  dsimp only
  refine bind (fun a b hab => ?_) fun _ => ?_
  · have hregistered : Workspace.Alike
        { a with functions := a.functions.register name (extension.call given).after }
        { b with functions := b.functions.register name (extension.call given).after } :=
      ⟨by rw [hab.functions], hab.logging, hab.log⟩
    exact ⟨.ok (), _, _, rfl, rfl, hregistered.note rfl⟩
  · cases (extension.call given).result with
    | ok operand => exact pure operand
    | error fault => exact fun a b hab => ⟨.error fault, a, b, rfl, rfl, hab⟩

theorem matched {query query' : Query} {segment segment' : Segment}
    (hquery : query.text = query'.text) (hsegment : segment.text = segment'.text) (count : Nat) :
    Alike (Run.host.matched query segment count) (Run.host.matched query' segment' count) := by
  intro a b hab
  have htext : (Notice.matched query segment count).text =
      (Notice.matched query' segment' count).text := by
    rw [Notice.text_matched, Notice.text_matched, hquery, hsegment]
  exact ⟨.ok (), a.note [.matched query segment count], b.note [.matched query' segment' count],
    rfl, rfl, hab.note (congrArg ([·]) htext)⟩

theorem search {depthFirst breadthFirst depthFirst' breadthFirst' : Unit → Run (List Node)}
    (hdepth : Alike (depthFirst ()) (depthFirst' ()))
    (hbreadth : Alike (breadthFirst ()) (breadthFirst' ())) :
    Alike (Run.host.search depthFirst breadthFirst)
      (Run.host.search depthFirst' breadthFirst') := by
  have htraces : Alike Run.host.traces Run.host.traces := by
    intro a b hab
    refine ⟨.ok b.logging, a, b, ?_, rfl, hab⟩
    rw [← hab.logging]
    rfl
  refine htraces.bind fun traces => ?_
  cases traces with
  | true => exact hbreadth
  | false => exact hdepth

theorem gather {f g : α → Run (List β)} (h : ∀ a, Alike (f a) (g a)) :
    ∀ items : List α, Alike (JsonPath.gather f items) (JsonPath.gather g items)
  | [] => pure []
  | item :: rest => (h item).bind fun _ => (gather h rest).bind fun _ => pure _

theorem keep {f g : α → Run Bool} (h : ∀ a, Alike (f a) (g a)) :
    ∀ items : List α, Alike (JsonPath.keep f items) (JsonPath.keep g items)
  | [] => pure []
  | item :: rest => (h item).bind fun _ => (keep h rest).bind fun _ => pure _

end Alike

end Run

/-! ### What a result counts for -/

namespace Operand

theorem holds_bare (e : Expr) (result : Operand) : result.holds e.bare = result.holds e := by
  cases result with
  | value v => cases e <;> cases v <;> rfl
  | nodes | listed => cases e <;> rfl

theorem single_bare (e : Expr) (result : Operand) : result.single e.bare = result.single e := by
  cases e <;> rfl

theorem argument_bare (e : Expr) (result : Operand) (type : ExprType) :
    result.argument e.bare type = result.argument e type := by
  cases type with
  | value => exact single_bare e result
  | logical => exact congrArg (fun b => value (.boolean b)) (holds_bare e result)
  | nodes => rfl

end Operand

/-! ### Queries -/

open Run (Alike)

mutual

theorem Expr.alike_bare (current root : Value) : ∀ e : Expr,
    Alike (e.evaluate Run.host current root) (e.bare.evaluate Run.host current root)
  | .literal _ _ => .pure _
  | .negation _ operand => by
    refine (Expr.alike_bare current root operand).bind fun result => ?_
    rw [Operand.holds_bare]
    exact .pure _
  | .conjunction _ left right => by
    refine (Expr.alike_bare current root left).bind fun first => ?_
    rw [Operand.holds_bare]
    split
    · refine (Expr.alike_bare current root right).bind fun second => ?_
      rw [Operand.holds_bare]
      exact .pure _
    · exact .pure _
  | .disjunction _ left right => by
    refine (Expr.alike_bare current root left).bind fun first => ?_
    rw [Operand.holds_bare]
    split
    · exact .pure _
    · refine (Expr.alike_bare current root right).bind fun second => ?_
      rw [Operand.holds_bare]
      exact .pure _
  | .comparison _ left operator right => by
    refine (Expr.alike_bare current root left).bind fun first => ?_
    refine (Expr.alike_bare current root right).bind fun second => ?_
    rw [Operand.single_bare, Operand.single_bare]
    exact .pure _
  | .relative _ segments | .absolute _ segments =>
    Alike.bind (.search (depthFirst_alike_bare segments _)
      (breadthFirst_alike_bare (Query.text_bare segments).symm segments _)) fun _ => .pure _
  | .call _ name arguments =>
    (Alike.parameters name).bind fun parameters =>
      (arguments_alike_bare current root arguments parameters).bind fun given =>
        Alike.call name given

theorem arguments_alike_bare (current root : Value) : ∀ (arguments : List Expr)
    (parameters : List ExprType),
    Alike (evaluateArguments Run.host current root arguments parameters)
      (evaluateArguments Run.host current root (bareArguments arguments) parameters)
  | [], _ => .pure []
  | _ :: _, [] => .pure []
  | argument :: arguments, parameter :: parameters => by
    refine (Expr.alike_bare current root argument).bind fun result => ?_
    refine (arguments_alike_bare current root arguments parameters).bind fun more => ?_
    rw [Operand.argument_bare]
    exact .pure _

theorem Selector.alike_bare (node : Node) : ∀ selector : Selector,
    Alike (selector.select Run.host node) (selector.bare.select Run.host node)
  | .name _ _ | .index _ _ | .wildcard _ => .pure _
  | .slice _ start? stop? step? => by
    have hstep : node.sliced start? stop? (some (step?.getD 1)) =
        node.sliced start? stop? step? := by cases step? <;> rfl
    rw [Selector.bare, Selector.select, Selector.select, hstep]
    exact .pure _
  | .filter _ expression => by
    refine Alike.keep (fun child => ?_) node.children
    refine (Expr.alike_bare child.value node.root expression).bind fun result => ?_
    rw [Operand.holds_bare]
    exact .pure _

theorem selectEach_alike_bare {follow follow' : Node → Run (List Node)}
    (hfollow : ∀ node, Alike (follow node) (follow' node)) (node : Node) :
    ∀ selectors : List Selector, Alike (selectEach Run.host node follow selectors)
      (selectEach Run.host node follow' (bareSelectors selectors))
  | [] => .pure []
  | selector :: rest =>
    (Selector.alike_bare node selector).bind fun picked =>
      (Alike.gather hfollow picked).bind fun _ =>
        (selectEach_alike_bare hfollow node rest).bind fun _ => .pure _

theorem Segment.alike_bare {follow follow' : Node → Run (List Node)}
    (hfollow : ∀ node, Alike (follow node) (follow' node)) (node : Node) :
    ∀ segment : Segment, Alike (segment.apply Run.host follow node)
      (segment.bare.apply Run.host follow' node)
  | .child _ selectors => selectEach_alike_bare hfollow node selectors
  | .descendant _ selectors =>
    Alike.gather (fun visited => selectEach_alike_bare hfollow visited selectors) node.descendants

theorem depthFirst_alike_bare : ∀ (segments : List Segment) (node : Node),
    Alike (depthFirst Run.host segments node) (depthFirst Run.host (bareSegments segments) node)
  | [], node => .pure [node]
  | segment :: rest, node => Segment.alike_bare (depthFirst_alike_bare rest) node segment

theorem breadthFirst_alike_bare {query query' : Query} (hquery : query.text = query'.text) :
    ∀ (segments : List Segment) (nodes : List Node),
      Alike (breadthFirst Run.host query segments nodes)
        (breadthFirst Run.host query' (bareSegments segments) nodes)
  | [], nodes => .pure nodes
  | segment :: rest, nodes => by
    refine (Alike.gather (fun node => Segment.alike_bare (fun _ => .pure _) node segment)
      nodes).bind fun picked => ?_
    refine (Alike.matched hquery (Segment.text_bare segment).symm picked.length).bind fun _ => ?_
    exact breadthFirst_alike_bare hquery rest picked

end

/-- Queries that are the same without their tokens run alike. -/
theorem Query.evaluate_alike {query query' : Query} (h : bareSegments query = bareSegments query')
    (start : Node) : Alike (query.evaluate Run.host start) (query'.evaluate Run.host start) := by
  have hbare (query : Query) : Alike (query.evaluate Run.host start)
      (Query.evaluate Run.host (bareSegments query) start) :=
    .search (depthFirst_alike_bare query start)
      (breadthFirst_alike_bare (Query.text_bare query).symm query [start])
  have hbare' := hbare query'
  rw [← h] at hbare'
  exact (hbare query).trans hbare'.symm

end JsonPath
