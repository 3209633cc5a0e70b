import JsonPath.Extension

/-!
The five standard functions: the length of a value, the number of nodes, the value of a node, and
the two tests of strings against patterns, as a whole and in part.
-/

namespace JsonPath.Extension

/-- How the tests against patterns are set up: the size of their caches, whether they are strict,
and what compiles their patterns. -/
structure PatternSettings where
  cacheSize : Nat
  strict : Bool
  compile : Text → Except PatternError Regex

/-- The usual set-up, which knows no character by its name. -/
def PatternSettings.standard : PatternSettings := ⟨128, false, Regex.ofPattern .none⟩

def number (n : Nat) : Operand := .value (.number (.integer n))

/-- The length of a string, a sequence or an object, and nothing for any other value. -/
def lengthOf : Operand → Operand
  | .value (.octets _) => .value .nothing
  | operand => (operand.size?.map number).getD (.value .nothing)

def length : Extension where
  label := "Length"
  signature := ⟨[.value], .value⟩
  behaviour := .plain fun arguments =>
    match arguments with
    | [operand] => .ok (lengthOf operand)
    | _ => .error .wrongArguments

def count : Extension where
  label := "Count"
  signature := ⟨[.nodes], .value⟩
  behaviour := .plain fun arguments =>
    match arguments with
    | [operand] =>
      match operand.size? with
      | some n => .ok (number n)
      | none => .error .wrongArguments
    | _ => .error .wrongArguments

def typeLabel : Value → Text
  | .null => "NoneType"
  | .boolean _ => "bool"
  | .number (.integer _) => "int"
  | .number (.double _) => "float"
  | .string _ => "str"
  | .array _ => "list"
  | .sequence .tuple _ => "tuple"
  | .sequence .nodeList _ => "NodeList"
  | .object _ => "dict"
  | .octets _ => "bytes"
  | .nothing => "Nothing"

def soleItemFault : Value → Fault
  | .array [item] => .noAttribute (typeLabel item) "value"
  | .sequence _ [item] => .noAttribute (typeLabel item) "value"
  | .octets _ => .noAttribute (typeLabel (.number (.integer 0))) "value"
  | .object _ => .noMember 0
  | value => .noAttribute (typeLabel value) "value"

def valueOf : Operand → Except Fault Operand
  | .nodes [node] => .ok (.value node.value)
  | .listed [node] => .ok (.value node.value)
  | operand =>
    match operand.size? with
    | some 1 => .error (soleItemFault operand.asValue)
    | some _ => .ok (.value .nothing)
    | none => .error .wrongArguments

def value : Extension where
  label := "Value"
  signature := ⟨[.nodes], .value⟩
  behaviour := .plain fun arguments =>
    match arguments with
    | [operand] => valueOf operand
    | _ => .error .wrongArguments

def patternTest (label : Text) (test : PatternTest) (settings : PatternSettings) : Extension where
  label
  signature := ⟨[.value, .value], .logical⟩
  behaviour := .pattern ⟨test, settings.strict, settings.compile, .empty settings.cacheSize⟩

def matchTest (settings : PatternSettings) : Extension := patternTest "Match" .whole settings

def searchTest (settings : PatternSettings) : Extension := patternTest "Search" .part settings

def standard (settings : PatternSettings) : List (Text × Extension) :=
  [("length", length), ("count", count), ("value", value), ("match", matchTest settings),
    ("search", searchTest settings)]

end JsonPath.Extension
