import JsonPath.CommandLine.Arguments
import JsonPath.Environment
import JsonPath.Text.LineEnd
import JsonPath.Value.Reader

/-!
The command line tool. It finds the nodes of a query in one document, which is read from a file or
from standard input, and writes their values or their paths.
-/

namespace JsonPath.CommandLine

structure Outcome where
  exit : Nat
  output : Text
  errors : Text
deriving DecidableEq, Repr

/-- What a run is asked to do. Without a document one is read from standard input. -/
structure Task where
  query : Text
  document : Option Text
  paths : Bool
  indent? : Option Int
  verbose : Bool

def Task.start : Task := ⟨"", none, false, none, false⟩

structure Inputs (m : Type → Type) where
  file : Text → m (Except FileFault Text)
  standard : m Text

inductive Abort where
  | query (error : CompileError)
  | numeral (fault : NumeralFault)
  | evaluation (fault : Fault)
  | widthOutOfRange
  | outOfMemory

def Abort.message : Abort → Text
  | query error => error.message
  | numeral fault => fault.message
  | evaluation fault => fault.message
  | widthOutOfRange => "cannot fit 'int' into an index-sized integer"
  | outOfMemory => ""

def toolName : Text := "jsonpath-rfc9535"

def versionText : Text := toolName ++ " 0.1.0\n"

def usageText : Text :=
  "usage: " ++ toolName ++ " [-h] [--paths] [--indent INDENT] [-v] [--version] query [file]\n"

def usageOutcome (fault : UsageError) : Outcome :=
  ⟨2, "", usageText ++ toolName ++ ": error: " ++ fault.message ++ "\n"⟩

/-- Widths of an indentation are integers of 64 bits. -/
def isWidth (width : Int) : Bool := -9223372036854775808 ≤ width && width ≤ 9223372036854775807

/-- The widest indentation for which there is memory. -/
def widestIndent : Int := 4294967296

/-- Values as the tool writes them. An indentation below zero is none. -/
def rendered (indent? : Option Int) (values : List Value) : Except Abort Text :=
  match indent? with
  | some indent =>
    if !isWidth indent then .error .widthOutOfRange
    else if widestIndent < indent then .error .outOfMemory
    else .ok ((Value.array values).jsonIndented indent.toNat)
  | none => .ok (Value.array values).json

def answer (task : Task) (nodes : List Node) : Except Abort Text :=
  if task.paths then .ok (Text.join (nodes.map fun node => node.path ++ "\n"))
  else (rendered task.indent? (nodes.map (·.value))).map (· ++ "\n")

def logText (log : List Notice) : Text := Text.join (log.map fun notice => notice.text ++ "\n")

def execute (task : Task) (document : Text) : Except Abort Outcome :=
  let environment := Environment.standard
  match environment.compile task.query with
  | .error (.query error) => .ok ⟨1, "", "Invalid query: " ++ error.message ++ "\n"⟩
  | .error error => .error (.query error)
  | .ok query =>
    let workspace : Workspace := Workspace.note [.compiled task.query query]
      ⟨environment.functions, task.verbose, []⟩
    match Value.ofJson document with
    | .error (.numeral fault) => .error (.numeral fault)
    | .error error =>
      .ok ⟨1, "", logText workspace.log ++ "Invalid JSON: " ++ error.message document ++ "\n"⟩
    | .ok value => do
      let (result, workspace) := (query.evaluate Run.host (Node.start value none)).run.run workspace
      let nodes ← result.mapError .evaluation
      let output ← answer task nodes
      return ⟨0, output, logText (workspace.note [.answered query nodes.length]).log⟩

variable {m : Type → Type} [Monad m]

def carryOut (inputs : Inputs m) (fault? : Option UsageError) (task : Task) :
    List Request → m (Except Abort Outcome)
  | [] => do
    match fault? with
    | some fault => return .ok (usageOutcome fault)
    | none =>
      match task.document with
      | some document => return execute task document
      | none => return execute task (← inputs.standard)
  | request :: rest => do
    match request with
    | .query text => carryOut inputs fault? { task with query := text } rest
    | .standardInput => carryOut inputs fault? { task with document := none } rest
    | .file "-" => carryOut inputs fault? { task with document := none } rest
    | .file name =>
      if !isFileName name then return .ok (usageOutcome (.noFileName name))
      match ← inputs.file name with
      | .ok text =>
        let document := Text.ofList (Text.unifyLineEnds text.toList)
        carryOut inputs fault? { task with document } rest
      | .error fault => return .ok (usageOutcome (.unreadable name fault))
    | .indent width => carryOut inputs fault? { task with indent? := some width } rest
    | .set .paths => carryOut inputs fault? { task with paths := true } rest
    | .set .verbose => carryOut inputs fault? { task with verbose := true } rest
    | .set .version => return .ok ⟨0, versionText, ""⟩
    | .set .help => return .ok ⟨0, usageText, ""⟩
    | .set .indent => carryOut inputs fault? task rest

def run (inputs : Inputs m) (words : List Text) : m (Except Abort Outcome) :=
  let plan := Plan.ofWords words
  carryOut inputs plan.fault? .start plan.requests

end JsonPath.CommandLine
