import JsonPath.Evaluation

/-!
Search one node at a time. A cursor keeps for each segment the selectors that are still to be
applied, each to one node; to pull a node is to apply them in depth-first order until one is found.
-/

namespace JsonPath

abbrev Job := Selector × Node

/-- What is still to be done for segments: nodes that are ready to be pulled where there is no
segment, and otherwise jobs of the first segment and what is left for those after it. -/
def Pending : List Segment → Type
  | [] => List Node
  | _ :: rest => List Job × Pending rest

def Segment.jobs (node : Node) : Segment → List Job
  | .child _ selectors => selectors.map (·, node)
  | .descendant _ selectors => node.descendants.flatMap fun visited => selectors.map (·, visited)

def Pending.from : (segments : List Segment) → List Node → Pending segments
  | [], nodes => nodes
  | segment :: rest, nodes => (nodes.flatMap segment.jobs, Pending.from rest [])

variable {m : Type → Type} [Monad m]

/-- Does jobs until something can be pulled from what they lead to. -/
def pullJobs {β : Type} (select : Job → m (List Node)) (pull : List Node → m (Option (Node × β))) :
    List Job → m (Option (Node × List Job × β))
  | [] => return none
  | job :: jobs => do
    let picked ← select job
    match ← pull picked with
    | some (node, later) => return some (node, jobs, later)
    | none => pullJobs select pull jobs

def Pending.pull (host : Host m) : (segments : List Segment) → Pending segments →
    m (Option (Node × Pending segments))
  | [], [] => return none
  | [], node :: nodes => return some (node, nodes)
  | _ :: rest, (jobs, later) => do
    match ← Pending.pull host rest later with
    | some (node, later) => return some (node, (jobs, later))
    | none =>
      pullJobs (fun job => job.1.select host job.2)
        (fun nodes => Pending.pull host rest (Pending.from rest nodes)) jobs

structure Cursor where
  segments : List Segment
  pending : Pending segments

namespace Cursor

def exhausted : Cursor := ⟨[], ([] : List Node)⟩

/-- The search for the nodes of a query. If the host traces, everything is found at once. -/
def ofQuery (host : Host m) (query : Query) (start : Node) : m Cursor := do
  if ← host.traces then
    let nodes ← breadthFirst host query query [start]
    return ⟨[], nodes⟩
  else return ⟨query, Pending.from query [start]⟩

def next (host : Host m) (cursor : Cursor) : m (Option Node × Cursor) := do
  match ← Pending.pull host cursor.segments cursor.pending with
  | some (node, pending) => return (some node, ⟨cursor.segments, pending⟩)
  | none => return (none, exhausted)

end Cursor

def Query.first? (host : Host m) (query : Query) (start : Node) : m (Option Node) := do
  let cursor ← Cursor.ofQuery host query start
  return (← cursor.next host).1

end JsonPath
