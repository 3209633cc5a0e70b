import JsonPath.Node
import JsonPath.Query
import JsonPath.Query.Typing

/-!
What filter expressions evaluate to, and how it counts where a value, a truth value or nodes are
asked for. A query selects a node list. Nodes that a function lists are no node list, but just a
sequence of nodes.
-/

namespace JsonPath

/-- What an expression evaluates to. -/
inductive Operand where
  | value (value : Value)
  | nodes (nodes : List Node)
  | listed (nodes : List Node)

namespace Operand

def asValue : Operand → Value
  | value v => v
  | nodes ns => .sequence .nodeList (ns.map Node.asValue)
  | listed ns => .array (ns.map Node.asValue)

def isTrue : Operand → Bool
  | value v => v.isTrue
  | nodes ns => !ns.isEmpty
  | listed ns => !ns.isEmpty

def size? : Operand → Option Nat
  | value (.string s) => some s.length
  | value (.array items) => some items.length
  | value (.sequence _ items) => some items.length
  | value (.object members) => some members.length
  | value (.octets bytes) => some bytes.length
  | value _ => none
  | nodes ns => some ns.length
  | listed ns => some ns.length

/-- Whether an evaluated expression holds as a test. A query holds if it selects something, and a
call if its result is anything but zero, empty or absent. -/
def holds (e : Expr) (result : Operand) : Bool :=
  match result, e with
  | nodes ns, _ => !ns.isEmpty
  | result, .call _ _ _ => result.isTrue
  | value (.boolean b), _ => b
  | _, _ => false

/-- What an evaluated expression stands for as a value: a query for the value of its only node, or
for nothing, and any other expression for its result. -/
def single (e : Expr) (result : Operand) : Operand :=
  match result, e.isQuery with
  | nodes [node], true => value node.value
  | nodes _, true => value .nothing
  | result, _ => result

def argument (e : Expr) (result : Operand) : ExprType → Operand
  | .value => result.single e
  | .logical => value (.boolean (result.holds e))
  | .nodes => result

end Operand

end JsonPath
