import JsonPath.Evaluation.Cursor
import JsonPath.Extension.Further
import JsonPath.Query.Canonical
import JsonPath.Query.Parser

/-!
Environments: the functions that queries can call, and the bounds of indices. Queries are compiled
against an environment, and the functions are looked up again by their names when they are called.
While queries run, the caches of the functions fill and a log is written; both outlast a fault.
-/

namespace JsonPath

abbrev Registry := List (Text × Extension)

namespace Registry

def find? (name : Text) (registry : Registry) : Option Extension :=
  (List.find? (·.1 = name) registry).map (·.2)

/-- Registers a function; under a name that is taken it replaces the former one in its place. -/
def register (name : Text) (extension : Extension) : Registry → Registry
  | [] => [(name, extension)]
  | (other, former) :: rest =>
    if other = name then (name, extension) :: rest
    else (other, former) :: register name extension rest

def unregister (name : Text) (registry : Registry) : Registry :=
  List.filter (·.1 ≠ name) registry

def names (registry : Registry) : List Text := registry.map (·.1)

def signatures (registry : Registry) : Signatures := fun name =>
  (registry.find? name).map (·.signature)

end Registry

/-- How an environment is set up. Functions are asked for by their names in the library; without a
list of all of them, the standard ones are registered. -/
structure Configuration where
  cacheSize : Int
  strict : Bool
  leastIndex : Int
  greatestIndex : Int
  all? : Option (List Text)
  more : List Text
deriving Repr

/-- The usual set-up. Indices are bounded by the integers that a binary64 number tells apart. -/
def Configuration.standard : Configuration where
  cacheSize := 128
  strict := false
  leastIndex := -9007199254740991
  greatestIndex := 9007199254740991
  all? := none
  more := []

inductive ConfigurationError where
  | capacity (refused : NegativeCapacity)
  | unknownName (name : Text)
deriving DecidableEq, Repr

def ConfigurationError.message : ConfigurationError → Text
  | capacity refused => refused.message
  | unknownName name => Text.quoted name

structure Environment where
  leastIndex : Int
  greatestIndex : Int
  functions : Registry

namespace Environment

def standardFunctions (cacheSize : Int) (strict : Bool) : Except ConfigurationError Registry :=
  if cacheSize < 0 then .error (.capacity ⟨cacheSize⟩)
  else
    let settings := { Extension.PatternSettings.standard with cacheSize := cacheSize.toNat, strict }
    .ok (Extension.standard settings)

def withNamed : List Text → Registry → Except ConfigurationError Registry
  | [], registry => .ok registry
  | name :: rest, registry =>
    match Extension.named? .standard name with
    | some extension => withNamed rest (registry.register name extension)
    | none => .error (.unknownName name)

def ofConfiguration (configuration : Configuration) : Except ConfigurationError Environment := do
  let basis ←
    match configuration.all? with
    | some names => withNamed names []
    | none => standardFunctions configuration.cacheSize configuration.strict
  let functions ← withNamed configuration.more basis
  return ⟨configuration.leastIndex, configuration.greatestIndex, functions⟩

def standard : Environment :=
  ⟨Configuration.standard.leastIndex, Configuration.standard.greatestIndex,
    Extension.standard .standard⟩

def dialect (environment : Environment) : Dialect :=
  ⟨environment.leastIndex, environment.greatestIndex, environment.functions.signatures⟩

def compile (environment : Environment) (text : Text) : Except CompileError Query :=
  Query.ofText environment.dialect text

end Environment

inductive Notice where
  | compiled (text : Text) (query : Query)
  | matched (query : Query) (segment : Segment) (count : Nat)
  | extension (event : ExtensionEvent)
  | answered (query : Query) (count : Nat)

def ExtensionEvent.text : ExtensionEvent → Text
  | refused label pattern =>
    "jsonpath_rfc9535.function_extensions.regex: " ++
      label ++ ": can't compile pattern " ++ Text.quoted pattern
  | evicted pattern capacity =>
    "jsonpath_rfc9535.lru_cache: " ++
      let cache : Cache Text Regex := .empty capacity
      "Evicted " ++ Text.quoted pattern ++ " from " ++ cache.diagnostic

def Notice.text : Notice → Text
  | compiled text query =>
    "jsonpath_rfc9535.environment: Compiled " ++ Text.quoted text ++ " -> " ++ query.text
  | matched query segment count =>
    "jsonpath_rfc9535.path: " ++ query.text ++ ": " ++ segment.text ++ " matched " ++
      Text.ofNat count ++ " node(s)"
  | extension event => event.text
  | answered query count => "jsonpath_rfc9535.cli: " ++ query.text ++ " matched " ++
    Text.ofNat count ++ " node(s)"

/-- What changes while queries run: the functions with their caches, and the log, which is written
only on demand. -/
structure Workspace where
  functions : Registry
  logging : Bool
  log : List Notice

namespace Workspace

def note (notices : List Notice) (workspace : Workspace) : Workspace :=
  if workspace.logging then { workspace with log := workspace.log ++ notices } else workspace

end Workspace

abbrev Run := ExceptT Fault (StateM Workspace)

namespace Run

def function (name : Text) : Run Extension := do
  match (← get).functions.find? name with
  | some extension => return extension
  | none => throw (.unknownName name)

/-- Calls a registered function, which is registered again as it is after the call. -/
def call (name : Text) (arguments : List Operand) : Run Operand := do
  let outcome := (← function name).call arguments
  modify fun workspace =>
    { workspace with functions := workspace.functions.register name outcome.after }.note
      (outcome.events.map .extension)
  match outcome.result with
  | .ok operand => return operand
  | .error fault => throw fault

/-- The host of evaluations with the registered functions. A search traces when the log is
written. -/
def host : Host Run where
  traces := return (← get).logging
  matched query segment count := modify (·.note [.matched query segment count])
  parameters name := return (← function name).signature.parameters
  call := call

end Run

end JsonPath
