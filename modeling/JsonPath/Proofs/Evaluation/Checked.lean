import JsonPath.Environment
import JsonPath.Proofs.Evaluation.Types

/-!
# Checked evaluation

The evaluation of queries once more, with a check at each place where it relies on the static rules:
the arguments of a call, the operands of a comparison, and a query in the place of a value. Where a
check fails the evaluation stops with a breach. In all else it does what an evaluation does.
-/

namespace JsonPath

/-- What an evaluation relies on never to meet. -/
inductive Breach where
  | arguments (name : Text) (given : List Operand)
  | operand (operand : Operand)
  | ambiguous (nodes : List Node)

/-- A host as one of computations that can do more. -/
def Host.lift {m n : Type → Type} [MonadLiftT m n] (host : Host m) : Host n where
  traces := liftM host.traces
  matched query segment count := liftM (host.matched query segment count)
  parameters name := liftM (host.parameters name)
  call name given := liftM (host.call name given)

variable {m : Type → Type} [Monad m] [MonadExceptOf Breach m]

def ensure (condition : Bool) (breach : Breach) : m Unit :=
  if condition then return () else throw breach

/-- An evaluated expression in the place of a value. A query must not have selected two nodes. -/
def Operand.checkedSingle (e : Expr) (result : Operand) : m Operand :=
  match result, e.isQuery with
  | .nodes ns, true => do
    ensure (decide (ns.length ≤ 1)) (.ambiguous ns)
    return result.single e
  | _, _ => return result.single e

/-- An evaluated expression as the argument for a parameter of a type. -/
def Operand.checkedArgument (e : Expr) (result : Operand) : ExprType → m Operand
  | .value => result.checkedSingle e
  | type => return result.argument e type

mutual

def Expr.checked (host : Host m) (current root : Value) : Expr → m Operand
  | .literal _ literal => return .value literal.value
  | .negation _ operand => do
    let result ← operand.checked host current root
    return .value (.boolean (!result.holds operand))
  | .conjunction _ left right => do
    let first ← left.checked host current root
    if first.holds left then
      let second ← right.checked host current root
      return .value (.boolean (second.holds right))
    else return .value (.boolean false)
  | .disjunction _ left right => do
    let first ← left.checked host current root
    if first.holds left then return .value (.boolean true)
    else
      let second ← right.checked host current root
      return .value (.boolean (second.holds right))
  | .comparison _ left operator right => do
    let first ← left.checked host current root
    let second ← right.checked host current root
    let leftValue ← first.checkedSingle left
    let rightValue ← second.checkedSingle right
    ensure (leftValue.hasType .value) (.operand leftValue)
    ensure (rightValue.hasType .value) (.operand rightValue)
    return .value (.boolean (operator.holds leftValue.asValue rightValue.asValue))
  | .relative _ segments => do
    let start := Node.start current (some root)
    let found ← host.search (fun _ => checkedDepthFirst host segments start)
      (fun _ => checkedBreadthFirst host segments segments [start])
    return .nodes found
  | .absolute _ segments => do
    let start := Node.start root none
    let found ← host.search (fun _ => checkedDepthFirst host segments start)
      (fun _ => checkedBreadthFirst host segments segments [start])
    return .nodes found
  | .call _ name arguments => do
    let parameters ← host.parameters name
    let given ← checkedArguments host current root arguments parameters
    ensure (operandsHaveTypes parameters given) (.arguments name given)
    host.call name given

def checkedArguments (host : Host m) (current root : Value) :
    List Expr → List ExprType → m (List Operand)
  | argument :: arguments, parameter :: parameters => do
    let result ← argument.checked host current root
    let more ← checkedArguments host current root arguments parameters
    let given ← result.checkedArgument argument parameter
    return given :: more
  | _, _ => return []

def Selector.checked (host : Host m) (node : Node) : Selector → m (List Node)
  | .name _ name => return node.named name
  | .index _ index => return node.indexed index
  | .wildcard _ => return node.children
  | .slice _ start? stop? step? => return node.sliced start? stop? step?
  | .filter _ expression =>
    keep (fun child => do
      let result ← expression.checked host child.value node.root
      return result.holds expression) node.children

def checkedEach (host : Host m) (node : Node) (follow : Node → m (List Node)) :
    List Selector → m (List Node)
  | [] => return []
  | selector :: rest => do
    let picked ← selector.checked host node
    let first ← gather follow picked
    let more ← checkedEach host node follow rest
    return first ++ more

def Segment.checked (host : Host m) (follow : Node → m (List Node)) (node : Node) :
    Segment → m (List Node)
  | .child _ selectors => checkedEach host node follow selectors
  | .descendant _ selectors =>
    gather (fun visited => checkedEach host visited follow selectors) node.descendants

def checkedDepthFirst (host : Host m) : List Segment → Node → m (List Node)
  | [], node => return [node]
  | segment :: rest, node => segment.checked host (checkedDepthFirst host rest) node

def checkedBreadthFirst (host : Host m) (query : Query) :
    List Segment → List Node → m (List Node)
  | [], nodes => return nodes
  | segment :: rest, nodes => do
    let picked ←
      gather (fun node => segment.checked host (fun picked => return [picked]) node) nodes
    host.matched query segment picked.length
    checkedBreadthFirst host query rest picked

end

/-- The nodes that a query selects from a start, if nothing is breached on the way. -/
def Query.checked (host : Host m) (query : Query) (start : Node) : m (List Node) :=
  host.search (fun _ => checkedDepthFirst host query start)
    (fun _ => checkedBreadthFirst host query query [start])

/-- A run that stops at a breach. -/
abbrev CheckedRun := ExceptT Breach Run

/-! ### Checked runs and runs -/

namespace Run

variable {α β : Type} {workspace after : Workspace} {y : Run α} {a : α} {fault : Fault}

theorem bind_ok {g : α → Run β} (h : y.run.run workspace = (.ok a, after)) :
    (y >>= g).run.run workspace = (g a).run.run after := by
  rw [ExceptT.run_bind, StateT.run_bind, h]
  rfl

theorem bind_error {g : α → Run β} (h : y.run.run workspace = (.error fault, after)) :
    (y >>= g).run.run workspace = (.error fault, after) := by
  rw [ExceptT.run_bind, StateT.run_bind, h]
  rfl

theorem lift_ok (h : y.run.run workspace = (.ok a, after)) :
    (liftM y : CheckedRun α).run.run.run workspace = (.ok (.ok a), after) :=
  bind_ok h

theorem lift_error (h : y.run.run workspace = (.error fault, after)) :
    (liftM y : CheckedRun α).run.run.run workspace = (.error fault, after) :=
  bind_error h

end Run

/-- The functions have the declarations and keep them. -/
structure Workspace.Keeps (signatures : Signatures) (tolerated : Fault → Prop)
    (workspace : Workspace) : Prop where
  declared : workspace.functions.signatures = signatures
  kept : ∀ name extension, workspace.functions.find? name = some extension →
    extension.KeepsDeclaration tolerated

/-- From wherever functions keep their declarations, both computations do the same, and nothing is
breached: they end with a result as described, or with a tolerated fault. -/
def Faithful {α : Type} (signatures : Signatures) (tolerated : Fault → Prop) (x : CheckedRun α)
    (y : Run α) (post : α → Prop) : Prop :=
  ∀ workspace : Workspace, workspace.Keeps signatures tolerated →
    ∃ result after, y.run.run workspace = (result, after) ∧
      x.run.run.run workspace = (result.map .ok, after) ∧
      after.Keeps signatures tolerated ∧ Meets tolerated post result

namespace Faithful

variable {α β : Type} {signatures : Signatures} {tolerated : Fault → Prop} {x : CheckedRun α}
  {y : Run α} {post : α → Prop}

theorem pure {a : α} (h : post a) :
    Faithful signatures tolerated (Pure.pure a) (Pure.pure a) post :=
  fun workspace hkeeps => ⟨.ok a, workspace, rfl, rfl, hkeeps, h⟩

theorem mono {post' : α → Prop} (h : Faithful signatures tolerated x y post)
    (hpost : ∀ a, post a → post' a) : Faithful signatures tolerated x y post' := by
  intro workspace hkeeps
  obtain ⟨result, after, hy, hx, hafter, hresult⟩ := h workspace hkeeps
  exact ⟨result, after, hy, hx, hafter, hresult.mono hpost⟩

theorem bind {f : α → CheckedRun β} {g : α → Run β} {post' : β → Prop}
    (h : Faithful signatures tolerated x y post)
    (hf : ∀ a, post a → Faithful signatures tolerated (f a) (g a) post') :
    Faithful signatures tolerated (x >>= f) (y >>= g) post' := by
  intro workspace hkeeps
  obtain ⟨result, after, hy, hx, hafter, hresult⟩ := h workspace hkeeps
  cases result with
  | ok a =>
    obtain ⟨result', after', hy', hx', hends⟩ := hf a hresult after hafter
    refine ⟨result', after', ?_, ?_, hends⟩
    · rw [Run.bind_ok hy, hy']
    · rw [ExceptT.run_bind, Run.bind_ok hx]
      exact hx'
  | error fault =>
    refine ⟨.error fault, after, Run.bind_error hy, ?_, hafter, hresult⟩
    rw [ExceptT.run_bind, Run.bind_error hx]
    rfl

theorem lift (h : ∀ workspace : Workspace, workspace.Keeps signatures tolerated →
    ∃ result after, y.run.run workspace = (result, after) ∧
      after.Keeps signatures tolerated ∧ Meets tolerated post result) :
    Faithful signatures tolerated (liftM y) y post := by
  intro workspace hkeeps
  obtain ⟨result, after, hy, hends⟩ := h workspace hkeeps
  refine ⟨result, after, hy, ?_, hends⟩
  cases result with
  | ok a => exact Run.lift_ok hy
  | error fault => exact Run.lift_error hy

/-- A check that passes changes nothing. -/
theorem ensure {condition : Bool} {breach : Breach} {f : Unit → CheckedRun α}
    (hcondition : condition = true) (h : Faithful signatures tolerated (f ()) y post) :
    Faithful signatures tolerated (JsonPath.ensure condition breach >>= f) y post := by
  subst hcondition
  exact h

end Faithful

end JsonPath
