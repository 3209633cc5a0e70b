import JsonPath.Evaluation.Cursor

/-!
# Evaluation in two monads

An evaluation uses nothing of its monad but what the host offers. So a relation between two monads
that goes through sequences, and that the answers of two hosts stand in, holds between all that is
evaluated with them.
-/

namespace JsonPath

variable {m n : Type → Type} [Monad m] [Monad n] {R : (α : Type) → m α → n α → Prop}
  {α β : Type}

/-- The relation holds between equal results, and goes through sequences. -/
structure Respects (R : (α : Type) → m α → n α → Prop) : Prop where
  pure : ∀ {α : Type} (a : α), R α (Pure.pure a) (Pure.pure a)
  bind : ∀ {α β : Type} {x : m α} {y : n α} {f : α → m β} {g : α → n β},
    R α x y → (∀ a, R β (f a) (g a)) → R β (x >>= f) (y >>= g)

/-- The answers of two hosts stand in the relation. Of their searches it is enough that they do so
whenever the search does in either order. -/
structure Host.Related (R : (α : Type) → m α → n α → Prop) (host : Host m) (host' : Host n) : Prop
    extends Respects R where
  matched : ∀ query segment count,
    R Unit (host.matched query segment count) (host'.matched query segment count)
  parameters : ∀ name, R _ (host.parameters name) (host'.parameters name)
  call : ∀ name given, R _ (host.call name given) (host'.call name given)
  search : ∀ (query : Query) (start : Node),
    R _ (depthFirst host query start) (depthFirst host' query start) →
      R _ (breadthFirst host query query [start]) (breadthFirst host' query query [start]) →
        R _ (query.evaluate host start) (query.evaluate host' start)

namespace Respects

theorem gather (h : Respects R) {f : α → m (List β)} {g : α → n (List β)}
    (hfg : ∀ a, R _ (f a) (g a)) :
    ∀ items : List α, R _ (JsonPath.gather f items) (JsonPath.gather g items)
  | [] => h.pure []
  | item :: rest => h.bind (hfg item) fun _ => h.bind (gather h hfg rest) fun _ => h.pure _

theorem keep (h : Respects R) {f : α → m Bool} {g : α → n Bool} (hfg : ∀ a, R _ (f a) (g a)) :
    ∀ items : List α, R _ (JsonPath.keep f items) (JsonPath.keep g items)
  | [] => h.pure []
  | item :: rest => h.bind (hfg item) fun _ => h.bind (keep h hfg rest) fun _ => h.pure _

end Respects

namespace Host.Related

variable {host : Host m} {host' : Host n}

/-- Hosts that trace alike search alike. -/
theorem of_traces (h : Respects R) (htraces : R _ host.traces host'.traces)
    (hmatched : ∀ query segment count,
      R Unit (host.matched query segment count) (host'.matched query segment count))
    (hparameters : ∀ name, R _ (host.parameters name) (host'.parameters name))
    (hcall : ∀ name given, R _ (host.call name given) (host'.call name given)) :
    host.Related R host' where
  toRespects := h
  matched := hmatched
  parameters := hparameters
  call := hcall
  search query start hdepth hbreadth := by
    refine h.bind htraces fun traces => ?_
    cases traces with
    | true => exact hbreadth
    | false => exact hdepth

variable (h : host.Related R host')

include h

mutual

theorem expr (current root : Value) :
    ∀ e : Expr, R _ (e.evaluate host current root) (e.evaluate host' current root)
  | .literal _ _ => h.pure _
  | .negation _ operand => h.bind (expr current root operand) fun _ => h.pure _
  | .conjunction _ left right => by
    refine h.bind (expr current root left) fun first => ?_
    split
    · exact h.bind (expr current root right) fun _ => h.pure _
    · exact h.pure _
  | .disjunction _ left right => by
    refine h.bind (expr current root left) fun first => ?_
    split
    · exact h.pure _
    · exact h.bind (expr current root right) fun _ => h.pure _
  | .comparison _ left _ right =>
    h.bind (expr current root left) fun _ => h.bind (expr current root right) fun _ => h.pure _
  | .relative _ query =>
    h.bind (h.search query _ (depthFirst query _) (breadthFirst query query _)) fun _ => h.pure _
  | .absolute _ query =>
    h.bind (h.search query _ (depthFirst query _) (breadthFirst query query _)) fun _ => h.pure _
  | .call _ name given =>
    h.bind (h.parameters name) fun parameters =>
      h.bind (arguments current root given parameters) fun operands => h.call name operands

theorem arguments (current root : Value) : ∀ (given : List Expr) (parameters : List ExprType),
    R _ (evaluateArguments host current root given parameters)
      (evaluateArguments host' current root given parameters)
  | [], _ => h.pure []
  | _ :: _, [] => h.pure []
  | e :: given, _ :: parameters =>
    h.bind (expr current root e) fun _ =>
      h.bind (arguments current root given parameters) fun _ => h.pure _

theorem selector (node : Node) :
    ∀ sel : Selector, R _ (sel.select host node) (sel.select host' node)
  | .name _ _ | .index _ _ | .wildcard _ | .slice _ _ _ _ => h.pure _
  | .filter _ e => by
    refine h.keep (fun child => ?_) node.children
    exact h.bind (expr child.value node.root e) fun _ => h.pure _

theorem selectors {follow : Node → m (List Node)} {follow' : Node → n (List Node)}
    (hfollow : ∀ node, R _ (follow node) (follow' node)) (node : Node) :
    ∀ sels : List Selector,
      R _ (selectEach host node follow sels) (selectEach host' node follow' sels)
  | [] => h.pure []
  | sel :: rest =>
    h.bind (selector node sel) fun picked =>
      h.bind (h.gather hfollow picked) fun _ =>
        h.bind (selectors hfollow node rest) fun _ => h.pure _

theorem segment {follow : Node → m (List Node)} {follow' : Node → n (List Node)}
    (hfollow : ∀ node, R _ (follow node) (follow' node)) (node : Node) :
    ∀ seg : Segment, R _ (seg.apply host follow node) (seg.apply host' follow' node)
  | .child _ sels => selectors hfollow node sels
  | .descendant _ sels => h.gather (fun visited => selectors hfollow visited sels) node.descendants

theorem depthFirst : ∀ (segments : List Segment) (node : Node),
    R _ (JsonPath.depthFirst host segments node) (JsonPath.depthFirst host' segments node)
  | [], node => h.pure [node]
  | seg :: rest, node => segment (depthFirst rest) node seg

theorem breadthFirst (query : Query) : ∀ (segments : List Segment) (nodes : List Node),
    R _ (JsonPath.breadthFirst host query segments nodes)
      (JsonPath.breadthFirst host' query segments nodes)
  | [], nodes => h.pure nodes
  | seg :: rest, nodes =>
    h.bind (h.gather (fun node => segment (fun _ => h.pure _) node seg) nodes) fun picked =>
      h.bind (h.matched query seg picked.length) fun _ => breadthFirst query rest picked

end

theorem evaluate (query : Query) (start : Node) :
    R _ (query.evaluate host start) (query.evaluate host' start) :=
  h.search query start (h.depthFirst query start) (h.breadthFirst query query [start])

/-! ### Cursors -/

theorem pullJobs {β : Type} {select : Job → m (List Node)} {select' : Job → n (List Node)}
    {pull : List Node → m (Option (Node × β))} {pull' : List Node → n (Option (Node × β))}
    (hselect : ∀ job, R _ (select job) (select' job))
    (hpull : ∀ nodes, R _ (pull nodes) (pull' nodes)) :
    ∀ jobs, R _ (JsonPath.pullJobs select pull jobs) (JsonPath.pullJobs select' pull' jobs)
  | [] => h.pure none
  | job :: jobs => by
    refine h.bind (hselect job) fun picked => h.bind (hpull picked) fun pulled? => ?_
    cases pulled? with
    | some pulled => exact h.pure _
    | none => exact pullJobs hselect hpull jobs

theorem pull : ∀ (segments : List Segment) (pending : Pending segments),
    R _ (pending.pull host segments) (pending.pull host' segments)
  | [], [] => h.pure none
  | [], _ :: _ => h.pure _
  | _ :: rest, (jobs, later) => by
    refine h.bind (pull rest later) fun pulled? => ?_
    cases pulled? with
    | some pulled => exact h.pure _
    | none =>
      exact h.pullJobs (fun job => h.selector job.2 job.1) (fun nodes => pull rest _) jobs

theorem next (cursor : Cursor) : R _ (cursor.next host) (cursor.next host') := by
  refine h.bind (h.pull cursor.segments cursor.pending) fun pulled? => ?_
  cases pulled? with
  | some pulled => exact h.pure _
  | none => exact h.pure _

theorem ofQuery (htraces : R _ host.traces host'.traces) (query : Query) (start : Node) :
    R _ (Cursor.ofQuery host query start) (Cursor.ofQuery host' query start) := by
  refine h.bind htraces fun traces => ?_
  cases traces with
  | true => exact h.bind (h.breadthFirst query query [start]) fun _ => h.pure _
  | false => exact h.pure _

theorem first? (htraces : R _ host.traces host'.traces) (query : Query) (start : Node) :
    R _ (query.first? host start) (query.first? host' start) :=
  h.bind (h.ofQuery htraces query start) fun cursor => h.bind (h.next cursor) fun _ => h.pure _

end Host.Related

end JsonPath
