import JsonPath.Extension.Standard

/-!
Further functions that can be registered beside the standard ones. Some of them have results of an
unusual kind for their declared type: a number or nothing where a truth value is declared, a string
as a test, or nodes that are no node list.
-/

namespace JsonPath.Extension

def unary (label : Text) (parameter result : ExprType) (apply : Operand → Except Fault Operand) :
    Extension where
  label
  signature := ⟨[parameter], result⟩
  behaviour := .plain fun arguments =>
    match arguments with
    | [a] => apply a
    | _ => .error .wrongArguments

def binary (label : Text) (parameter result : ExprType)
    (apply : Operand → Operand → Except Fault Operand) : Extension where
  label
  signature := ⟨[parameter, parameter], result⟩
  behaviour := .plain fun arguments =>
    match arguments with
    | [a, b] => apply a b
    | _ => .error .wrongArguments

def constant (label : Text) (type : ExprType) (result : Operand) : Extension where
  label
  signature := ⟨[], type⟩
  behaviour := .plain fun arguments =>
    match arguments with
    | [] => .ok result
    | _ => .error .wrongArguments

def logical (b : Bool) : Operand := .value (.boolean b)

def startsWith : Extension :=
  binary "StartsWith" .value .logical fun a b =>
    match a, b with
    | .value (.string s), .value (.string start) => .ok (logical (start.toList.isPrefixOf s.toList))
    | _, _ => .ok (logical false)

def negate : Extension := unary "Negate" .logical .logical fun a => .ok (logical !a.isTrue)

/-- The first argument if it counts as false, and the second otherwise. -/
def both : Extension :=
  binary "Both" .logical .logical fun a b => .ok (if a.isTrue then b else a)

def firstDigit : Extension :=
  unary "FirstDigit" .value .logical fun a =>
    match a with
    | .value (.string s) =>
      match s.toList.find? CodePoint.isDigit with
      | some digit => .ok (.value (.string (Text.singleton digit)))
      | none => .ok (.value .null)
    | _ => .ok (.value .null)

/-- What a value has in it one by one: characters, items, names or numbers. -/
def contents? : Value → Option (List Value)
  | .string s => some (s.toList.map fun c => .string (Text.singleton c))
  | .array items => some items
  | .sequence _ items => some items
  | .object members => some (members.map fun member => .string member.1)
  | .octets bytes => some (bytes.map fun b => .number (.integer b.toNat))
  | _ => none

/-- The nodes of a node list, as a sequence that is none. -/
def children : Extension :=
  unary "Children" .nodes .nodes fun a =>
    match a with
    | .nodes ns => .ok (.listed ns)
    | .listed ns => .ok (.listed ns)
    | .value v =>
      match contents? v with
      | some items => .ok (.value (.array items))
      | none => .error .wrongArguments

def head : Extension :=
  unary "Head" .nodes .nodes fun a =>
    match a with
    | .nodes ns => .ok (.nodes (ns.take 1))
    | .listed ns => .ok (.nodes (ns.take 1))
    | .value (.object _) => .error .wrongArguments
    | .value v =>
      match contents? v with
      | some items => .ok (.value (.sequence .nodeList (items.take 1)))
      | none => .error .wrongArguments

def pair : Extension :=
  binary "Pair" .value .value fun a b =>
    let item (operand : Operand) : Value :=
      match operand.asValue with
      | .nothing => .null
      | v => v
    .ok (.value (.array [item a, item b]))

def same : Extension := unary "Same" .value .value .ok

def missing : Extension :=
  unary "Missing" .value .logical fun a => .ok (logical (a matches .value .nothing))

def answer : Extension := constant "Answer" .value (number 42)

def zero : Extension := constant "Zero" .logical (number 0)

def nothing : Extension := constant "NothingFunction" .logical (.value .nothing)

/-- A function that is declared but not defined. -/
def undefined : Extension where
  label := "FilterFunction"
  signature := ⟨[], .value⟩
  behaviour := .plain fun _ => .error .notImplemented

def undefinedTest (settings : PatternSettings) : Extension :=
  patternTest "AbstractRegexFunction" .undefined settings

def further (settings : PatternSettings) : List (Text × Extension) :=
  [("startswith", startsWith), ("negate", negate), ("both", both), ("firstdigit", firstDigit),
    ("children", children), ("head", head), ("pair", pair), ("same", same), ("answer", answer),
    ("zero", zero), ("missing", missing), ("nothing", nothing), ("abstract", undefined),
    ("abstractregex", undefinedTest settings)]

def all (settings : PatternSettings) : List (Text × Extension) :=
  standard settings ++ further settings

def named? (settings : PatternSettings) (name : Text) : Option Extension :=
  ((all settings).find? (·.1 = name)).map (·.2)

end JsonPath.Extension
