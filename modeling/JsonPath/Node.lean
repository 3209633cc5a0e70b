import JsonPath.Value.Printer

/-!
Nodes: values together with the place where they were found. A location lists the steps from the
root value down to the node; its normalized path is a query that selects this node alone.
-/

namespace JsonPath

inductive Step where
  | name (name : Text)
  | index (index : Int)
deriving DecidableEq, Repr

abbrev Location := List Step

def Step.text : Step → Text
  | name n => "[" ++ Text.normalizedName n ++ "]"
  | index i => "[" ++ Text.ofInt i ++ "]"

def Location.path (location : Location) : Text :=
  location.foldl (fun text step => text ++ step.text) "$"

def Step.value : Step → Value
  | name n => .string n
  | index i => .number (.integer i)

def indexed {α : Type} (start : Nat) : List α → List (Step × α)
  | [] => []
  | item :: rest => (.index start, item) :: indexed (start + 1) rest

def Value.children : Value → List (Step × Value)
  | object members => members.map fun member => (.name member.1, member.2)
  | array items => indexed 0 items
  | sequence _ items => indexed 0 items
  | _ => []

/-- A value, where it was found, and the root value that absolute queries start from. -/
structure Node where
  value : Value
  location : Location
  root : Value

instance : Inhabited Node := ⟨⟨.null, [], .null⟩⟩

namespace Node

def child (node : Node) (step : Step) (value : Value) : Node :=
  { node with value, location := node.location ++ [step] }

def path (node : Node) : Text := node.location.path

def asValue (node : Node) : Value :=
  .sequence .tuple
    [node.value, .sequence .tuple (node.location.map Step.value), node.root]

def diagnostic (node : Node) : Text :=
  "JSONPathNode(" ++ node.value.diagnostic ++ ", " ++ Text.quoted node.path ++ ")"

def listDiagnostic (nodes : List Node) : Text :=
  "NodeList[" ++ Text.intercalate ", " (nodes.map diagnostic) ++ "]"

/-- The node at which a search starts. Where no root is given, or a null, the value is the root. -/
def start (value : Value) (root? : Option Value) : Node :=
  let root :=
    match root? with
    | none | some .null => value
    | some root => root
  ⟨value, [], root⟩

end Node

end JsonPath
