import JsonPath.Extension
import JsonPath.Node.Descendants
import JsonPath.Slice

/-!
The evaluation of queries. What it needs from its surroundings, the functions above all, is asked
of a host in a monad of its own, so that the same evaluation runs with caches and a log, or with
functions in the mathematical sense.

A query goes through its segments depth first: all that follows from one node is found before the
selectors go on to the next. When the host traces, it goes breadth first instead, and tells how many
nodes each segment has matched.
-/

namespace JsonPath

/-- What an evaluation asks of its surroundings. -/
structure Host (m : Type → Type) where
  traces : m Bool
  matched : Query → Segment → Nat → m Unit
  parameters : Text → m (List ExprType)
  call : Text → List Operand → m Operand

variable {m : Type → Type} [Monad m]

def gather {α β : Type} (f : α → m (List β)) : List α → m (List β)
  | [] => return []
  | a :: rest => do
    let first ← f a
    let more ← gather f rest
    return first ++ more

def keep {α : Type} (test : α → m Bool) : List α → m (List α)
  | [] => return []
  | a :: rest => do
    let kept ← test a
    let more ← keep test rest
    return if kept then a :: more else more

namespace Node

def named (node : Node) (name : Text) : List Node :=
  match node.value with
  | .object members =>
    match Value.lookup? name members with
    | some value => [node.child (.name name) value]
    | none => []
  | _ => []

/-- The item at an index, which counts from the end if it is below zero. -/
def item? (items : List Value) (index : Int) : Option (Int × Value) :=
  let index := if index < 0 ∧ -index ≤ items.length then index + items.length else index
  if index < 0 then none else items[index.toNat]?.map (index, ·)

def indexed (node : Node) (index : Int) : List Node :=
  match node.value.items? with
  | some items =>
    (item? items index).toList.map fun (index, value) => node.child (.index index) value
  | none => []

def children (node : Node) : List Node :=
  node.value.children.map fun (step, value) => node.child step value

def sliced (node : Node) (start? stop? step? : Option Int) : List Node :=
  match node.value.items? with
  | some items =>
    (Slice.indices items.length start? stop? step?).filterMap fun index =>
      items[index.toNat]?.map fun value => node.child (.index index) value
  | none => []

end Node

def Host.search (host : Host m) (depthFirst breadthFirst : Unit → m (List Node)) :
    m (List Node) := do
  if ← host.traces then breadthFirst () else depthFirst ()

mutual

def Expr.evaluate (host : Host m) (current root : Value) : Expr → m Operand
  | .literal _ literal => return .value literal.value
  | .negation _ operand => do
    let result ← operand.evaluate host current root
    return .value (.boolean (!result.holds operand))
  | .conjunction _ left right => do
    let first ← left.evaluate host current root
    if first.holds left then
      let second ← right.evaluate host current root
      return .value (.boolean (second.holds right))
    else return .value (.boolean false)
  | .disjunction _ left right => do
    let first ← left.evaluate host current root
    if first.holds left then return .value (.boolean true)
    else
      let second ← right.evaluate host current root
      return .value (.boolean (second.holds right))
  | .comparison _ left operator right => do
    let first ← left.evaluate host current root
    let second ← right.evaluate host current root
    return .value (.boolean
      (operator.holds (first.single left).asValue (second.single right).asValue))
  | .relative _ segments => do
    let start := Node.start current (some root)
    let found ← host.search (fun _ => depthFirst host segments start)
      (fun _ => breadthFirst host segments segments [start])
    return .nodes found
  | .absolute _ segments => do
    let start := Node.start root none
    let found ← host.search (fun _ => depthFirst host segments start)
      (fun _ => breadthFirst host segments segments [start])
    return .nodes found
  | .call _ name arguments => do
    let parameters ← host.parameters name
    host.call name (← evaluateArguments host current root arguments parameters)

/-- The arguments of a call, as far as there are parameters for them. -/
def evaluateArguments (host : Host m) (current root : Value) :
    List Expr → List ExprType → m (List Operand)
  | argument :: arguments, parameter :: parameters => do
    let result ← argument.evaluate host current root
    let more ← evaluateArguments host current root arguments parameters
    return result.argument argument parameter :: more
  | _, _ => return []

def Selector.select (host : Host m) (node : Node) : Selector → m (List Node)
  | .name _ name => return node.named name
  | .index _ index => return node.indexed index
  | .wildcard _ => return node.children
  | .slice _ start? stop? step? => return node.sliced start? stop? step?
  | .filter _ expression =>
    keep (fun child => do
      let result ← expression.evaluate host child.value node.root
      return result.holds expression) node.children

def selectEach (host : Host m) (node : Node) (follow : Node → m (List Node)) :
    List Selector → m (List Node)
  | [] => return []
  | selector :: rest => do
    let picked ← selector.select host node
    let first ← gather follow picked
    let more ← selectEach host node follow rest
    return first ++ more

def Segment.apply (host : Host m) (follow : Node → m (List Node)) (node : Node) :
    Segment → m (List Node)
  | .child _ selectors => selectEach host node follow selectors
  | .descendant _ selectors =>
    gather (fun visited => selectEach host visited follow selectors) node.descendants

/-- The nodes to which segments lead from a node, found depth first. -/
def depthFirst (host : Host m) : List Segment → Node → m (List Node)
  | [], node => return [node]
  | segment :: rest, node => segment.apply host (depthFirst host rest) node

/-- The nodes to which the rest of a query leads from given nodes, found one segment after the
other. -/
def breadthFirst (host : Host m) (query : Query) : List Segment → List Node → m (List Node)
  | [], nodes => return nodes
  | segment :: rest, nodes => do
    let picked ← gather (fun node => segment.apply host (fun picked => return [picked]) node) nodes
    host.matched query segment picked.length
    breadthFirst host query rest picked

end

def Query.evaluate (host : Host m) (query : Query) (start : Node) : m (List Node) :=
  host.search (fun _ => depthFirst host query start)
    (fun _ => breadthFirst host query query [start])

end JsonPath
