import JsonPath.Number

/-!
The values that queries see: those of JSON, with object members in document order, and a few more
that arise around them. Tuples and node lists are sequences like an array, octets are a value of no
JSON kind, and `nothing` stands for the value of a query that selected no node.
-/

namespace JsonPath

/-- What a sequence is that is no array. The items of a node list are its nodes. -/
inductive SequenceForm where
  | tuple
  | nodeList
deriving DecidableEq, Repr

/-- A value of a document, or of a filter expression. -/
inductive Value where
  | null
  | boolean (b : Bool)
  | number (n : Number)
  | string (s : Text)
  | array (items : List Value)
  | sequence (form : SequenceForm) (items : List Value)
  | object (members : List (Text × Value))
  | octets (bytes : List UInt8)
  | nothing

instance : Inhabited Value := ⟨.null⟩

inductive Kind where
  | mapping
  | sequence
  | string
  | number
  | boolean
  | null
  | other
deriving DecidableEq, Repr

namespace Value

def kind : Value → Kind
  | null => .null
  | boolean _ => .boolean
  | number _ => .number
  | string _ => .string
  | array _ => .sequence
  | sequence _ _ => .sequence
  | object _ => .mapping
  | octets _ => .other
  | nothing => .other

def items? : Value → Option (List Value)
  | array items => some items
  | sequence _ items => some items
  | _ => none

def lookup? (name : Text) (members : List (Text × Value)) : Option Value :=
  (members.find? (·.1 == name)).map (·.2)

/-- The members with one more: a name that is there keeps its place and takes the new value. -/
def insertMember (name : Text) (value : Value) : List (Text × Value) → List (Text × Value)
  | [] => [(name, value)]
  | (other, old) :: rest =>
    if other = name then (name, value) :: rest else (other, old) :: insertMember name value rest

def ofMembers (members : List (Text × Value)) : Value :=
  object (members.foldl (fun kept member => insertMember member.1 member.2 kept) [])

/-- How a value counts where true or false is asked for: zeros, and whatever is empty or absent,
are false. -/
def isTrue : Value → Bool
  | null => false
  | boolean b => b
  | number n => !n.isZero
  | string s => s ≠ ""
  | array items => !items.isEmpty
  | sequence _ items => !items.isEmpty
  | object members => !members.isEmpty
  | octets bytes => !bytes.isEmpty
  | nothing => false

mutual

/-- Deep equality. Members are compared by name, in any order, and sequences item by item; values
of two kinds are never equal. -/
def equal : Value → Value → Bool
  | null, null => true
  | boolean a, boolean b => a == b
  | number a, number b => a.same b
  | string a, string b => a == b
  | array as, array bs => equalItems as bs
  | array as, sequence _ bs => equalItems as bs
  | sequence _ as, array bs => equalItems as bs
  | sequence _ as, sequence _ bs => equalItems as bs
  | object as, object bs => as.length == bs.length && equalMembers as bs
  | octets a, octets b => a == b
  | nothing, nothing => true
  | _, _ => false

def equalItems : List Value → List Value → Bool
  | [], [] => true
  | a :: as, b :: bs => equal a b && equalItems as bs
  | _, _ => false

def equalMembers : List (Text × Value) → List (Text × Value) → Bool
  | [], _ => true
  | (name, a) :: as, bs =>
    (match lookup? name bs with
      | some b => equal a b
      | none => false) && equalMembers as bs

end

/-- The order of numbers by value and of strings by code points; nothing else is ordered. -/
def less : Value → Value → Bool
  | number a, number b => a.less b
  | string a, string b => a < b
  | _, _ => false

end Value

inductive Comparison where
  | equal
  | notEqual
  | less
  | lessOrEqual
  | greater
  | greaterOrEqual
deriving DecidableEq, Repr

namespace Comparison

def all : List Comparison := [equal, notEqual, less, lessOrEqual, greater, greaterOrEqual]

def symbol : Comparison → Text
  | equal => "=="
  | notEqual => "!="
  | less => "<"
  | lessOrEqual => "<="
  | greater => ">"
  | greaterOrEqual => ">="

def ofSymbol? (symbol : Text) : Option Comparison :=
  all.find? (·.symbol == symbol)

def holds : Comparison → Value → Value → Bool
  | equal, a, b => a.equal b
  | notEqual, a, b => !a.equal b
  | less, a, b => a.less b
  | lessOrEqual, a, b => a.less b || a.equal b
  | greater, a, b => b.less a
  | greaterOrEqual, a, b => b.less a || a.equal b

end Comparison

end JsonPath
