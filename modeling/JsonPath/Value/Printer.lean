import JsonPath.Text.Quoted
import JsonPath.Value

/-!
The text of a value, as JSON on one line or over indented lines, and as diagnostics show it.
-/

namespace JsonPath.Value

def lineStart (indent? : Option Nat) (depth : Nat) : Text :=
  match indent? with
  | some indent => "\n" ++ Text.ofList (List.replicate (indent * depth) ' ')
  | none => ""

def separator (indent? : Option Nat) (depth : Nat) : Text :=
  match indent? with
  | some _ => "," ++ lineStart indent? depth
  | none => ", "

def enclosed (indent? : Option Nat) (depth : Nat) (opening closing : Text)
    (items : List Text) : Text :=
  if items.isEmpty then opening ++ closing
  else opening ++ lineStart indent? (depth + 1) ++
    (separator indent? (depth + 1)).intercalate items ++ lineStart indent? depth ++ closing

mutual

/-- The JSON text of a value at a depth. All sequences are written as arrays; octets and `nothing`,
which JSON cannot express, by a name. -/
def jsonAt (indent? : Option Nat) (depth : Nat) : Value → Text
  | null => "null"
  | boolean b => if b then "true" else "false"
  | number n => n.text .json
  | string s => Text.jsonLiteral s
  | array items => enclosed indent? depth "[" "]" (jsonItems indent? (depth + 1) items)
  | sequence _ items => enclosed indent? depth "[" "]" (jsonItems indent? (depth + 1) items)
  | object members => enclosed indent? depth "\x7b" "\x7d" (jsonMembers indent? (depth + 1) members)
  | octets _ => "OCTETS"
  | nothing => "NOTHING"

def jsonItems (indent? : Option Nat) (depth : Nat) : List Value → List Text
  | [] => []
  | item :: rest => jsonAt indent? depth item :: jsonItems indent? depth rest

def jsonMembers (indent? : Option Nat) (depth : Nat) : List (Text × Value) → List Text
  | [] => []
  | (name, value) :: rest =>
    (Text.jsonLiteral name ++ ": " ++ jsonAt indent? depth value) ::
      jsonMembers indent? depth rest

end

mutual

def isExpressible : Value → Bool
  | array items => areExpressible items
  | sequence _ items => areExpressible items
  | object members => haveExpressibleValues members
  | octets _ => false
  | nothing => false
  | _ => true

def areExpressible : List Value → Bool
  | [] => true
  | item :: rest => item.isExpressible && areExpressible rest

def haveExpressibleValues : List (Text × Value) → Bool
  | [] => true
  | (_, value) :: rest => value.isExpressible && haveExpressibleValues rest

end

def json (value : Value) : Text := value.jsonAt none 0

def jsonIndented (indent : Nat) (value : Value) : Text := value.jsonAt (some indent) 0

mutual

def diagnostic : Value → Text
  | null => "None"
  | boolean b => if b then "True" else "False"
  | number n => n.text .diagnostic
  | string s => Text.quoted s
  | array items => "[" ++ Text.intercalate ", " (diagnosticItems items) ++ "]"
  | sequence .nodeList items => "[" ++ Text.intercalate ", " (diagnosticItems items) ++ "]"
  | sequence .tuple items =>
    "(" ++ Text.intercalate ", " (diagnosticItems items) ++
      (if items.length == 1 then ",)" else ")")
  | object members => "\x7b" ++ Text.intercalate ", " (diagnosticMembers members) ++ "\x7d"
  | octets _ => "OCTETS"
  | nothing => "NOTHING"

def diagnosticItems : List Value → List Text
  | [] => []
  | item :: rest => diagnostic item :: diagnosticItems rest

def diagnosticMembers : List (Text × Value) → List Text
  | [] => []
  | (name, value) :: rest =>
    (Text.quoted name ++ ": " ++ diagnostic value) :: diagnosticMembers rest

end

end JsonPath.Value
