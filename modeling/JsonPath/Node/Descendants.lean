import JsonPath.Node

/-!
The descendant walk: a node, then what is below each of its children in turn.
-/

namespace JsonPath

mutual

def Value.descendants (location : Location) : Value → List (Location × Value)
  | value@(.array items) => (location, value) :: itemDescendants location 0 items
  | value@(.sequence _ items) => (location, value) :: itemDescendants location 0 items
  | value@(.object members) => (location, value) :: memberDescendants location members
  | value => [(location, value)]

def itemDescendants (location : Location) (place : Nat) :
    List Value → List (Location × Value)
  | [] => []
  | item :: rest =>
    item.descendants (location ++ [.index place]) ++ itemDescendants location (place + 1) rest

def memberDescendants (location : Location) :
    List (Text × Value) → List (Location × Value)
  | [] => []
  | (name, value) :: rest =>
    value.descendants (location ++ [.name name]) ++ memberDescendants location rest

end

/-- The node and all nodes below it, in document order, each before those below it. -/
def Node.descendants (node : Node) : List Node :=
  (node.value.descendants node.location).map fun (location, value) =>
    { node with value, location }

end JsonPath
